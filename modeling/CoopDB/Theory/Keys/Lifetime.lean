import CoopDB.Lib.Transition
import CoopDB.Theory.Keys.Operations

/-!
# How Long a Key Lives

`Rotate` leaves the old key active for an overlap and then lets it expire. It
does so by setting `expires_at` to the end of the overlap, whatever stood there
before. A key that had no expiry gets one, as intended. A key that was going to
expire earlier is extended: a key that was created with an expiry, or one that
has been rotated before and is rotated again inside its overlap. By rotating
the old key once in every overlap its holder keeps it alive for good.

No other operation makes a row usable for longer: `Create` touches no existing
row, and `Revoke` only sets `revoked_at`.

## Main definitions

* `KeyOp`, `runOp`: Operations of the store, one after the other.
* `NotExtended`: Every row is usable for no longer than before.
* `Extends`: A rotation of a key that would have expired earlier.

## Theorems

* `notExtended_trans`: Not extended at any step is not extended at all.
* `runOp_notExtended_iff`: One operation extends nothing unless it is such a rotation.
* `key_life_iff`: Nor does a sequence of operations unless it has one, and in others
  a key that was rotated is dead from the end of the overlap on.
* `second_rotation_extends`: A key that is rotated twice.
-/

namespace CoopDB

open Transition (run Allowed EveryStep)

/-- An operation of the store. Operations of other processes come in between
    as they are. -/
inductive KeyOp
  | create (input : CreateKeyInput) (mint : Except String Minted) (db : CreateReplies)
  | rotate (oldID : String) (overlap now : Time) (mint : Except String Minted) (db : RotateReplies)
  | revoke (id : String) (now : Time) (db : Option DbError)

/-- The table after an operation. One that fails is rolled back. -/
def runOp (x : KeyExternals) (roles : PgRoles) (keys : Keys) : KeyOp → Option Keys
  | .create input mint db =>
    match create x roles mint db keys input with
    | .error _ => some keys
    | .ok (keys', _) => some keys'
  | .rotate oldID overlap now mint db =>
    match rotate x mint db keys oldID overlap now with
    | .error _ => some keys
    | .ok (keys', _) => some keys'
  | .revoke id now db =>
    match revoke x db keys id now with
    | .error _ => some keys
    | .ok keys' => some keys'

/-- One row is usable for no longer than another: revoked if that one is, and
    expiring no later if that one expires. -/
def KeyRow.NoLonger (row' row : KeyRow) : Prop :=
  (row.revokedAt ≠ none → row'.revokedAt ≠ none) ∧
    ∀ e, row.expiresAt = some e → ∃ e', row'.expiresAt = some e' ∧ e' ≤ e

/-- Every row of the first table is still there and usable for no longer. -/
def NotExtended (keys keys' : Keys) : Prop :=
  ∀ id row, keys id = some row → ∃ row', keys' id = some row' ∧ row'.NoLonger row

theorem KeyRow.noLonger_refl (row : KeyRow) : row.NoLonger row :=
  ⟨fun h => h, fun e he => ⟨e, he, Int.le_refl e⟩⟩

theorem notExtended_refl (keys : Keys) : NotExtended keys keys :=
  fun _ row hrow => ⟨row, hrow, row.noLonger_refl⟩

theorem notExtended_trans (a b c : Keys) (hab : NotExtended a b) (hbc : NotExtended b c) :
    NotExtended a c := by
  intro id row hrow
  rcases hab id row hrow with ⟨row₁, hrow₁, hrev₁, hexp₁⟩
  rcases hbc id row₁ hrow₁ with ⟨row₂, hrow₂, hrev₂, hexp₂⟩
  refine ⟨row₂, hrow₂, fun h => hrev₂ (hrev₁ h), fun e he => ?_⟩
  rcases hexp₁ e he with ⟨e₁, he₁, hle₁⟩
  rcases hexp₂ e₁ he₁ with ⟨e₂, he₂, hle₂⟩
  exact ⟨e₂, he₂, Int.le_trans hle₂ hle₁⟩

/-- A row that is usable for no longer than one that dies at an instant is dead
    from that instant on. -/
theorem KeyRow.active_of_noLonger (row row' : KeyRow) (h : row'.NoLonger row) (e t : Time)
    (hdies : row.revokedAt ≠ none ∨ row.expiresAt = some e) (ht : e ≤ t) :
    row'.active t = false := by
  unfold KeyRow.active isActive
  cases hrev : row'.revokedAt with
  | some => rfl
  | none =>
    rcases hdies with hrevoked | hexp
    · exact absurd hrev (h.1 hrevoked)
    · rcases h.2 e hexp with ⟨e', he', hle⟩
      simp only [he', decide_eq_false_iff_not, Int.not_lt]
      exact Int.le_trans hle ht

/-- An update that makes its row usable for no longer extends nothing, and one
    that does not extends something. -/
theorem update_notExtended_iff (keys : Keys) (id : Uuid) (f : KeyRow → Option KeyRow) :
    NotExtended keys (keys.update id f) ↔
      ∀ row, keys id = some row → ((f row).getD row).NoLonger row := by
  constructor
  · intro h row hrow
    rcases h id row hrow with ⟨row', hrow', hlonger⟩
    rw [update_apply, if_pos rfl, hrow, Option.map_some, Option.some.injEq] at hrow'
    rw [hrow']
    exact hlonger
  · intro h u row hrow
    by_cases hu : u = id
    · subst hu
      refine ⟨(f row).getD row, ?_, h row hrow⟩
      rw [update_apply, if_pos rfl, hrow, Option.map_some]
    · exact ⟨row, by rw [update_apply, if_neg hu, hrow], row.noLonger_refl⟩

/-- An insert under a new id extends nothing. -/
theorem insert_notExtended (keys : Keys) (id : Uuid) (row : KeyRow) (hfree : keys id = none) :
    NotExtended keys (Function.update keys id (some row)) := by
  intro u old hold
  have hu := keys.ne_of_free u id old hold hfree
  exact ⟨old, by rw [Function.update_of_ne hu, hold], old.noLonger_refl⟩

/-- Scheduling an expiry makes a row usable for no longer exactly when the row
    is revoked, or does not expire before. -/
theorem scheduleExpiry_noLonger_iff (start overlap : Time) (row : KeyRow) :
    ((scheduleExpiry start overlap row).getD row).NoLonger row ↔
      row.revokedAt ≠ none ∨ ∀ e, row.expiresAt = some e → start + overlap ≤ e := by
  unfold scheduleExpiry
  cases hrev : row.revokedAt with
  | some =>
    simp only [Option.getD_none, ne_eq, reduceCtorEq, not_false_eq_true, true_or, iff_true]
    exact row.noLonger_refl
  | none =>
    simp only [Option.getD_some, ne_eq, not_true_eq_false, false_or]
    constructor
    · intro h e he
      rcases h.2 e he with ⟨e', he', hle⟩
      rw [Option.some.injEq] at he'
      rw [he']
      exact hle
    · intro h
      refine ⟨fun hr => absurd hrev hr, fun e he => ⟨start + overlap, rfl, h e he⟩⟩

/-- Revoking makes a row usable for no longer. -/
theorem revokeRow_noLonger (now : Time) (row : KeyRow) :
    ((revokeRow now row).getD row).NoLonger row := by
  unfold revokeRow
  cases hrev : row.revokedAt with
  | some => exact row.noLonger_refl
  | none =>
    refine ⟨fun _ => ?_, fun e he => ⟨e, he, Int.le_refl e⟩⟩
    simp

section

variable (x : KeyExternals) (roles : PgRoles)

/-- A rotation that goes through. -/
def Rotates (keys : Keys) (oldID : String) (mint : Except String Minted) (db : RotateReplies)
    (u : Uuid) (old : KeyRow) (m : Minted) : Prop :=
  x.uuidParse oldID = .ok u ∧ keys u = some old ∧ mint = .ok m ∧ db.Accepted ∧ keys m.id = none

/-- A rotation that goes through, of a key that is not revoked and would have
    expired before the end of the new overlap. -/
def Extends (keys : Keys) : KeyOp → Prop
  | .rotate oldID overlap now mint db => ∃ u old m e, Rotates x keys oldID mint db u old m ∧
      old.revokedAt = none ∧ old.expiresAt = some e ∧ e < now + overlap
  | _ => False

/-- What a rotation does to the table, if it goes through. -/
theorem runOp_rotate_cases (keys : Keys) (oldID : String) (overlap now : Time)
    (mint : Except String Minted) (db : RotateReplies) :
    (∃ u old m, Rotates x keys oldID mint db u old m ∧
      runOp x roles keys (.rotate oldID overlap now mint db)
        = some (Keys.update (Function.update keys m.id (some (successorRow u old m))) u
            (scheduleExpiry now overlap))) ∨
    ((¬ ∃ u old m, Rotates x keys oldID mint db u old m) ∧
      runOp x roles keys (.rotate oldID overlap now mint db) = some keys) := by
  cases hr : rotate x mint db keys oldID overlap now with
  | error =>
    refine .inr ⟨?_, by simp only [runOp, hr]⟩
    rintro ⟨u, old, m, hu, hold, hm, hdb, hfree⟩
    have hok := (rotate_eq_ok x mint db keys _ oldID overlap now _).mpr
      ⟨u, old, m, hu, hold, hm, hdb, hfree, rfl, rfl⟩
    exact nomatch (hr.symm.trans hok)
  | ok p =>
    rcases p with ⟨keys', created⟩
    rcases (rotate_eq_ok x mint db keys keys' oldID overlap now created).mp hr with
      ⟨u, old, m, hu, hold, hm, hdb, hfree, hkeys, _⟩
    exact .inl ⟨u, old, m, ⟨hu, hold, hm, hdb, hfree⟩, by simp only [runOp, hr, hkeys]⟩

/-- A rotation that goes through extends nothing exactly when the old key is
    revoked or would not have expired before. -/
theorem rotate_notExtended_iff (keys : Keys) (u : Uuid) (old : KeyRow) (m : Minted)
    (overlap now : Time) (hold : keys u = some old) (hfree : keys m.id = none) :
    NotExtended keys (Keys.update (Function.update keys m.id (some (successorRow u old m))) u
        (scheduleExpiry now overlap)) ↔
      old.revokedAt ≠ none ∨ ∀ e, old.expiresAt = some e → now + overlap ≤ e := by
  have hne := keys.ne_of_free u m.id old hold hfree
  rw [← scheduleExpiry_noLonger_iff]
  constructor
  · intro h
    rcases h u old hold with ⟨row', hrow', hlonger⟩
    rw [rotate_apply keys u m overlap now hold hfree, if_pos rfl, Option.some.injEq] at hrow'
    rw [hrow']
    exact hlonger
  · intro h
    -- The successor is new, and the old row is the only one that is updated.
    refine notExtended_trans keys _ _ (insert_notExtended keys m.id (successorRow u old m) hfree) ?_
    rw [update_notExtended_iff]
    intro row hrow
    rw [Function.update_of_ne hne, hold, Option.some.injEq] at hrow
    rw [← hrow]
    exact h

/-- An operation extends no key exactly when it is not a rotation of a key that
    would have expired before. -/
theorem runOp_notExtended_iff (keys : Keys) (op : KeyOp) :
    (∀ keys', runOp x roles keys op = some keys' → NotExtended keys keys') ↔
      ¬ Extends x keys op := by
  cases op with
  | create input mint db =>
    refine iff_of_true (fun keys' hrun => ?_) not_false
    cases hc : create x roles mint db keys input with
    | error =>
      simp only [runOp, hc, Option.some.injEq] at hrun
      rw [← hrun]
      exact notExtended_refl keys
    | ok p =>
      rcases p with ⟨after, created⟩
      rcases (create_eq_ok x roles mint db keys after input created).mp hc with
        ⟨_, _, m, _, _, _, _, _, _, hfree, hafter, _⟩
      simp only [runOp, hc, Option.some.injEq] at hrun
      rw [← hrun, hafter]
      exact insert_notExtended keys m.id _ hfree
  | revoke id now db =>
    refine iff_of_true (fun keys' hrun => ?_) not_false
    cases hr : revoke x db keys id now with
    | error =>
      simp only [runOp, hr, Option.some.injEq] at hrun
      rw [← hrun]
      exact notExtended_refl keys
    | ok after =>
      rcases (revoke_eq_ok x db keys after id now).mp hr with ⟨u, _, _, hafter⟩
      simp only [runOp, hr, Option.some.injEq] at hrun
      rw [← hrun, hafter, update_notExtended_iff]
      exact fun row _ => revokeRow_noLonger now row
  | rotate oldID overlap now mint db =>
    rcases runOp_rotate_cases x roles keys oldID overlap now mint db with
      ⟨u, old, m, hrot, hrun⟩ | ⟨hno, hrun⟩
    · rw [hrun]
      simp only [Option.some.injEq, forall_eq']
      rw [rotate_notExtended_iff keys u old m overlap now hrot.2.1 hrot.2.2.2.2]
      constructor
      · -- The id and the table fix which row is rotated.
        rintro h ⟨u', old', m', e, hrot', hrev, hexp, hlt⟩
        have hu : u' = u := Except.ok.inj (hrot'.1.symm.trans hrot.1)
        subst hu
        have hold : old' = old := Option.some.inj (hrot'.2.1.symm.trans hrot.2.1)
        subst hold
        rcases h with hne | hle
        · exact hne hrev
        · exact absurd hlt (Int.not_lt.mpr (hle e hexp))
      · intro h
        by_cases hrev : old.revokedAt = none
        · exact .inr fun e hexp =>
            Int.not_lt.mp fun hlt => h ⟨u, old, m, e, hrot, hrev, hexp, hlt⟩
        · exact .inl hrev
    · rw [hrun]
      simp only [Option.some.injEq, forall_eq']
      refine iff_of_true (notExtended_refl keys) ?_
      rintro ⟨u, old, m, _, hrot, _⟩
      exact hno ⟨u, old, m, hrot⟩

/-- The old key after a rotation that goes through is revoked, or expires with
    the overlap. -/
theorem rotated_dies (keys : Keys) (u : Uuid) (old : KeyRow) (m : Minted) (overlap now : Time)
    (hold : keys u = some old) (hfree : keys m.id = none) :
    ∃ row, Keys.update (Function.update keys m.id (some (successorRow u old m))) u
        (scheduleExpiry now overlap) u = some row ∧
      (row.revokedAt ≠ none ∨ row.expiresAt = some (now + overlap)) := by
  rw [rotate_apply keys u m overlap now hold hfree, if_pos rfl]
  refine ⟨_, rfl, ?_⟩
  unfold scheduleExpiry
  cases hrev : old.revokedAt with
  | some => simp [hrev]
  | none => simp

/-- A sequence of operations extends the life of no key exactly when it has no
    rotation of a key that would have expired before the end of the overlap.
    In such a sequence a key that was rotated at `t` is inactive from
    `t + overlap` on, whatever came before and comes after. -/
theorem key_life_iff (keys : Keys) (ops : List KeyOp) :
    (EveryStep (runOp x roles) NotExtended keys ops ↔
      Allowed (runOp x roles) (fun keys op => ¬ Extends x keys op) keys ops) ∧
    (Allowed (runOp x roles) (fun keys op => ¬ Extends x keys op) keys ops →
      ∀ before after oldID overlap t mint db keys₁ keys₂ u old m,
        ops = before ++ .rotate oldID overlap t mint db :: after →
        run (runOp x roles) keys before = some keys₁ → Rotates x keys₁ oldID mint db u old m →
        run (runOp x roles) keys ops = some keys₂ →
        ∃ row, keys₂ u = some row ∧ ∀ t', t + overlap ≤ t' → row.active t' = false) := by
  refine ⟨Transition.everyStep_iff_allowed (runOp_notExtended_iff x roles), ?_⟩
  intro hall before after oldID overlap t mint db keys₁ keys₂ u old m hops hbefore hrot hrun
  subst hops
  -- Cut the run at the rotation: it leads to `keys₁`, through it, and on.
  rcases Transition.run_append_some hrun with ⟨s, hs, hrest⟩
  rw [hbefore, Option.some.injEq] at hs
  subst hs
  have hallowed := (Transition.allowed_append.mp hall).2 keys₁ hbefore
  rcases runOp_rotate_cases x roles keys₁ oldID overlap t mint db with
    ⟨u', old', m', hrot', hstep⟩ | ⟨hno, _⟩
  · have hu : u' = u := Except.ok.inj (hrot'.1.symm.trans hrot.1)
    subst hu
    rcases rotated_dies keys₁ u' old' m' overlap t hrot'.2.1 hrot'.2.2.2.2 with ⟨row, hrow, hdies⟩
    simp only [run, hstep] at hrest
    -- From there on nothing is extended, up to the end of the run.
    have hlater := Transition.run_relation NotExtended notExtended_refl notExtended_trans
      (fun s op s' hG hs' => (runOp_notExtended_iff x roles s op).mpr hG s' hs')
      (hallowed.2 _ hstep) hrest
    rcases hlater u' row hrow with ⟨row₂, hrow₂, hlonger⟩
    exact ⟨row₂, hrow₂, fun t' ht' => row.active_of_noLonger row₂ hlonger _ t' hdies ht'⟩
  · exact absurd ⟨u, old, m, hrot⟩ hno

end

/-- The `dbadmin` key of the table is rotated, with an overlap of ten. -/
def rotateAdmin (now : Time) (new : Uuid) : KeyOp :=
  .rotate "aa" 10 now
    (.ok { id := new, keyID := "new", fullToken := "token", secretHash := "hash" })
    { begin := none, select := none, insert := none, update := none, commit := none }

/-- A key that is rotated at 0 and again at 5, inside its overlap, expires at
    15 in place of 10. At 12 it is still active. -/
theorem second_rotation_extends :
    ¬ EveryStep (runOp letterExternals migratedRoles) NotExtended adminKeys
        [rotateAdmin 0 3, rotateAdmin 5 4] ∧
      ∃ keys row, run (runOp letterExternals migratedRoles) adminKeys
          [rotateAdmin 0 3, rotateAdmin 5 4] = some keys ∧
        keys 1 = some row ∧ row.active 12 = true := by
  refine ⟨fun h => ?_, _, _, rfl, rfl, rfl⟩
  have hfirst := h.2 _ rfl
  have hsecond := hfirst.1 _ rfl
  rcases hsecond 1 _ rfl with ⟨row, hrow, hlonger⟩
  rcases hlonger.2 10 rfl with ⟨e, he, hle⟩
  rw [← Option.some.inj hrow] at he
  rw [← Option.some.inj he] at hle
  exact absurd hle (by decide)

end CoopDB
