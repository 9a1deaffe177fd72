import CoopDB.Lib.Transition
import CoopDB.Theory.Auth.Steps

/-!
# Successors of Live Keys

A row with `replaces_key_id` is a successor, and a successor is supposed to
come from a key that is still good. `Rotate` never asks. Its select reads the
workspace, the env, the role and the name of the old row, and the insert
follows whatever `revoked_at` and `expires_at` say. Only the update at the end
has the guard `revoked_at IS NULL`, and there it decides nothing but the expiry
of the old row. The check that the caller's key is active was made on the
record that authentication came up with, and that can be minutes old.

So it is up to the environment. The row has to be active when the select reads it,
and to stay so until the insert: it is not revoked in between, no other rotation of it
commits an expiry that has passed, and its own expiry is not reached.

## Main definitions

* `BornAlive`: A successor was inserted while its predecessor was active.
* `Selected`: A rotation of the key is between its select and its insert.
* `ParentLives`: No such key dies in the step, and no dead one is selected.
* `Lineage`: The invariant.

## Theorems

* `stored_moved`, `alive_moved`, `locks_moved`, `lineage_step`: A step keeps it.
* `successor_of_live_key`: In a run in which selected keys live, every successor was
  inserted while its predecessor was active.
* `revoked_key_has_successor`: A key that was revoked from another process is still
  cached, and gets a successor without an expiry.
-/

namespace CoopDB

open Transition (run Allowed Sometime)
open ReadCommitted (Table)

/-- The committed row of the key is active now. -/
def AuthState.alive (s : AuthState) (o : Uuid) : Bool :=
  match s.keys.committed o with
  | none => false
  | some row => row.active s.now

/-- The step inserts row `id` as the successor of `o`. -/
def inserts (s : AuthState) (id o : Uuid) : AuthEvent → Bool
  | .call c (.mint (.ok m)) =>
    match (s.calls c).phase with
    | .rotate r (.insert _ _) => m.id == id && r.old == o && (s.keys.visible c m.id).isNone
    | _ => false
  | _ => false

/-- Row `id` was inserted as the successor of `o` in a state in which `o` was
    active. -/
def BornAlive (d : AuthDeployment) (s₀ : AuthState) (es : List AuthEvent) (id o : Uuid) : Prop :=
  Sometime (authStep d) (fun s e => inserts s id o e = true ∧ s.alive o = true) s₀ es

/-- A rotation of the key has read its row and not yet inserted the
    successor. -/
def Selected (s : AuthState) (o : Uuid) : Prop :=
  ∃ c r start old, (s.calls c).phase = .rotate r (.insert start old) ∧ r.old = o

/-- A rotation reads an active row, and while it is between its select and its
    insert that row is not revoked, no other rotation commits an expiry of it
    that has passed, and the clock does not reach its expiry. -/
def ParentLives (d : AuthDeployment) (s : AuthState) : AuthEvent → Prop
  | .tick t => ∀ o row, Selected s o → s.keys.committed o = some row →
      row.active (s.now + t) = true
  | .revoke id _ => ∀ u, d.externals.uuidParse id = .ok u → ¬ Selected s u
  | .call c act =>
    (∀ r start row, (s.calls c).phase = .rotate r (.select start) → act = .next →
      s.keys.committed r.old = some row → row.active s.now = true) ∧
    (∀ r, (s.calls c).phase = .rotate r .commit → act ≠ .fail → ∀ o row, Selected s o →
      s.keys.pending o = some (c, some row) → row.active s.now = true)
  | _ => True

/-- The call has written to the table and not ended its transaction. -/
def AuthPhase.writing : AuthPhase → Bool
  | .rotate _ (.update _) | .rotate _ .commit => true
  | _ => false

/-- The call is between its select and its insert. -/
def AuthPhase.inserting : AuthPhase → Bool
  | .rotate _ (.insert _ _) => true
  | _ => false

/-- Uncommitted writes are rows, of calls that are about to commit them. -/
def Locks (s : AuthState) : Prop :=
  ∀ k c v, s.keys.pending k = some (c, v) → (∃ row, v = some row) ∧
    (s.calls c).phase.writing = true

/-- The row is committed or about to be. -/
def Stored (T : Table Uuid CallId KeyRow) (id : Uuid) (row : KeyRow) : Prop :=
  T.committed id = some row ∨ ∃ c, T.pending id = some (c, some row)

theorem stored_of_visible {T : Table Uuid CallId KeyRow} {c : CallId} {id : Uuid} {row : KeyRow}
    (h : T.visible c id = some row) : Stored T id row := by
  rcases T.visible_eq_some c id row h with hc | hp
  · exact .inl hc
  · exact .inr ⟨c, hp⟩

/-- Scheduling an expiry leaves the predecessor alone. -/
theorem scheduleExpiry_replaces {start overlap : Time} {row row' : KeyRow}
    (h : scheduleExpiry start overlap row = some row') :
    row'.replacesKeyID = row.replacesKeyID := by
  unfold scheduleExpiry at h
  cases hrev : row.revokedAt with
  | some => rw [hrev] at h; cases h
  | none =>
    simp only [hrev, Option.some.injEq] at h
    rw [← h]

/-- Revoking leaves the predecessor alone. -/
theorem revokeRow_replaces {now : Time} {row row' : KeyRow} (h : revokeRow now row = some row') :
    row'.replacesKeyID = row.replacesKeyID := by
  unfold revokeRow at h
  cases hrev : row.revokedAt with
  | some => rw [hrev] at h; cases h
  | none =>
    simp only [hrev, Option.some.injEq] at h
    rw [← h]

section Table

variable (T : Table Uuid CallId KeyRow) (c : CallId)

/-- What is stored after the end of a transaction was stored before. -/
theorem stored_commit (id : Uuid) (row : KeyRow) (h : Stored (T.commit c) id row) :
    Stored T id row := by
  rcases h with hc | ⟨c', hp⟩
  · exact stored_of_visible hc
  · exact .inr ⟨c', ((T.pending_commit_eq_some c c' id _).mp hp).1⟩

theorem stored_rollback (id : Uuid) (row : KeyRow) (h : Stored (T.rollback c) id row) :
    Stored T id row := by
  rcases h with hc | ⟨c', hp⟩
  · exact .inl hc
  · exact .inr ⟨c', ((T.pending_rollback_eq_some c c' id _).mp hp).1⟩

/-- A write stores its own row and nothing else new. -/
theorem stored_write {k id : Uuid} {new row : KeyRow} (h : Stored (T.write c k (some new)) id row) :
    Stored T id row ∨ (id = k ∧ row = new) := by
  rcases h with hc | ⟨c', hp⟩
  · exact .inl (.inl hc)
  · by_cases hid : id = k
    · rw [hid, Table.pending_write_self, Option.some.injEq, Prod.mk.injEq, Option.some.injEq] at hp
      exact .inr ⟨hid, hp.2.symm⟩
    · rw [Table.pending_write_of_ne T c (some new) hid] at hp
      exact .inl (.inr ⟨c', hp⟩)

end Table

section Steps

variable (d : AuthDeployment)

variable (s t : AuthState) (e : AuthEvent)

/-- A stored successor was stored before as a successor of the same key, or it
    is the row of an insert that is taken just now. -/
theorem stored_moved (h : AuthMoved d s e t) {id o : Uuid} {row : KeyRow}
    (hst : Stored t.keys id row) (hrep : row.replacesKeyID = some o) :
    (∃ row', Stored s.keys id row' ∧ row'.replacesKeyID = some o) ∨
      (inserts s id o e = true ∧ Selected s o) := by
  cases h with
  | created mint db input id' row' hfree hlock hreplaces =>
    rcases hst with hc | hp
    · by_cases hid : id = id'
      · -- A key that `Create` inserts is no successor.
        simp only [hid, Function.update_self, Option.some.injEq] at hc
        rw [hc, hrep] at hreplaces
        cases hreplaces
      · simp only [Function.update_of_ne hid] at hc
        exact .inl ⟨row, .inl hc, hrep⟩
    · exact .inl ⟨row, .inr hp, hrep⟩
  | revoked id' db u T hu hT =>
    rcases s.keys.updateNow_cases T hT with ⟨hsame, _⟩ | ⟨old, new, hold, hnew, _, hT'⟩
    · rw [hsame] at hst
      exact .inl ⟨row, hst, hrep⟩
    · rw [hT'] at hst
      rcases hst with hc | hp
      · by_cases hid : id = u
        · simp only [hid, Function.update_self, Option.some.injEq] at hc
          rw [← hc, revokeRow_replaces hnew] at hrep
          exact .inl ⟨old, .inl (by rw [hid]; exact hold), hrep⟩
        · simp only [Function.update_of_ne hid] at hc
          exact .inl ⟨row, .inl hc, hrep⟩
      · exact .inl ⟨row, .inr hp, hrep⟩
  | inserted c r start old m hphase hfree hnone =>
    -- The row of the insert is stored as soon as it is written, before the commit.
    rcases stored_write s.keys c hst with hbefore | ⟨hid, hnew⟩
    · exact .inl ⟨row, hbefore, hrep⟩
    · rw [hnew] at hrep
      have hold : r.old = o := Option.some.inj hrep
      refine .inr ⟨?_, c, r, start, old, hphase, hold⟩
      simp [inserts, hphase, hid, hold, hnone]
  | updated c r start T hphase hT =>
    rcases s.keys.update_cases T hT with hsame | ⟨old, new, hold, hnew, hT'⟩
    · have hst' : Stored T id row := hst
      rw [hsame] at hst'
      exact .inl ⟨row, hst', hrep⟩
    · have hst' : Stored T id row := hst
      rw [hT'] at hst'
      rcases stored_write s.keys c hst' with hbefore | ⟨hid, hrow⟩
      · exact .inl ⟨row, hbefore, hrep⟩
      · -- The update writes the row it found, with another expiry.
        rw [hrow, scheduleExpiry_replaces hnew] at hrep
        exact .inl ⟨old, stored_of_visible (by rw [hid]; exact hold), hrep⟩
  | committed c => exact .inl ⟨row, stored_commit s.keys c id row hst, hrep⟩
  | aborted c => exact .inl ⟨row, stored_rollback s.keys c id row hst, hrep⟩
  | _ => exact .inl ⟨row, hst, hrep⟩

/-- Which rows are active depends on the committed row and the clock. -/
theorem alive_of_same {o : Uuid} (h : s.alive o = true)
    (hkeys : t.keys.committed o = s.keys.committed o) (hnow : t.now = s.now) :
    t.alive o = true := by
  unfold AuthState.alive at h ⊢
  rw [hkeys, hnow]
  exact h

theorem alive_eq_true (o : Uuid) :
    s.alive o = true ↔ ∃ row, s.keys.committed o = some row ∧ row.active s.now = true := by
  unfold AuthState.alive
  cases s.keys.committed o with
  | none | some => simp

/-- A key that a rotation has selected stays alive, if the step lets it. -/
theorem alive_moved (h : AuthMoved d s e t) (hG : ParentLives d s e) (hlocks : Locks s) (o : Uuid)
    (hsel : Selected s o) (halive : s.alive o = true) : t.alive o = true := by
  rcases (alive_eq_true s o).mp halive with ⟨row, hrow, hactive⟩
  cases h with
  | ticked => exact (alive_eq_true _ o).mpr ⟨row, hrow, hG o row hsel hrow⟩
  | created mint db input id' row' hfree =>
    have hne := Keys.ne_of_free s.keys.committed o id' row hrow hfree
    exact alive_of_same s _ halive (Function.update_of_ne hne _ _) rfl
  | revoked id' db u T hu hT =>
    rcases s.keys.updateNow_cases T hT with ⟨hsame, _⟩ | ⟨_, _, _, _, _, hT'⟩
    · exact alive_of_same s _ halive (by rw [hsame]) rfl
    · have hne : o ≠ u := fun heq => hG u hu (by rw [← heq]; exact hsel)
      refine alive_of_same s _ halive ?_ rfl
      rw [hT']
      exact Function.update_of_ne hne _ _
  | updated c r start T hphase hT =>
    refine alive_of_same s _ halive ?_ rfl
    rcases s.keys.update_cases T hT with hsame | ⟨_, _, _, _, hT'⟩
    · exact congrFun (congrArg Table.committed hsame) o
    · exact congrFun (congrArg Table.committed hT') o
  | committed c r act next hphase hact =>
    cases hp : s.keys.pending o with
    | none =>
      exact alive_of_same s _ halive (s.keys.committed_commit_of_not_owner c o
        (fun v hv => by rw [hp] at hv; cases hv)) rfl
    | some w =>
      rcases w with ⟨c', v⟩
      by_cases hc : c' = c
      · -- The commit publishes what this rotation wrote on the key.
        rw [hc] at hp
        rcases (hlocks o c v hp).1 with ⟨new, hv⟩
        rw [hv] at hp
        exact (alive_eq_true _ o).mpr ⟨new, s.keys.committed_commit_of_owner c o hp,
          hG.2 r hphase hact o new hsel hp⟩
      · exact alive_of_same s _ halive (s.keys.committed_commit_of_not_owner c o
          (fun v' hv' => hc (by rw [hp] at hv'; exact (Prod.mk.inj (Option.some.inj hv')).1)))
          rfl
  | _ => exact alive_of_same s _ halive rfl rfl

/-- Locks after a call has gone on: those that were there, unless they are its
    own and it is done writing, and perhaps a new one of its own. -/
theorem locks_call {T : Table Uuid CallId KeyRow} {c : CallId} {l : AuthCall} (h : Locks s)
    (hT : ∀ k c' v, T.pending k = some (c', v) →
      (s.keys.pending k = some (c', v) ∧ (c' = c → l.phase.writing = true)) ∨
        (c' = c ∧ l.phase.writing = true ∧ ∃ row, v = some row)) :
    Locks { s with keys := T, calls := Function.update s.calls c l } := by
  intro k c' v hk
  rcases hT k c' v hk with ⟨hbefore, hown⟩ | ⟨hown, hwriting, hrow⟩
  · refine ⟨(h k c' v hbefore).1, ?_⟩
    by_cases hc : c' = c
    · simp only [hc, Function.update_self]
      exact hown hc
    · simp only [Function.update_of_ne hc]
      exact (h k c' v hbefore).2
  · refine ⟨hrow, ?_⟩
    simp only [hown, Function.update_self]
    exact hwriting

/-- A call that has not written anything holds no lock, wherever it goes. -/
theorem locks_idle {c : CallId} (l : AuthCall) (h : Locks s)
    (hidle : (s.calls c).phase.writing = false) :
    Locks { s with calls := Function.update s.calls c l } := by
  refine locks_call s h (fun k c' v hk => .inl ⟨hk, fun heq => ?_⟩)
  have hwriting := (h k c' v hk).2
  rw [heq, hidle] at hwriting
  exact absurd hwriting (by simp)

/-- Only rotations past their insert hold locks. -/
theorem locks_moved (hm : AuthMoved d s e t) (h : Locks s) : Locks t := by
  -- The insert and the update both leave the call in a writing phase.
  have hwrite : ∀ c k row l, (l : AuthCall).phase.writing = true →
      Locks
        { s with keys := s.keys.write c k (some row), calls := Function.update s.calls c l } := by
    intro c k row l hl
    refine locks_call s h (fun k' c' v hk' => ?_)
    by_cases hk : k' = k
    · rw [hk, Table.pending_write_self, Option.some.injEq, Prod.mk.injEq] at hk'
      exact .inr ⟨hk'.1.symm, hl, row, hk'.2.symm⟩
    · rw [Table.pending_write_of_ne s.keys c _ hk] at hk'
      exact .inl ⟨hk', fun _ => hl⟩
  cases hm with
  | created => exact h
  | revoked id db u T hu hT =>
    rcases s.keys.updateNow_cases T hT with ⟨hsame, _⟩ | ⟨_, _, _, _, _, hT'⟩
    · rw [hsame]
      exact h
    · rw [hT']
      exact h
  | ticked | rested | dropped => exact h
  | started c job hidle => exact locks_idle s _ h (by rw [hidle]; rfl)
  | hit c p rec hphase | missed c p hphase | found c p u row hphase
  | verified c p rec readAt hphase | cached c p rec readAt hphase =>
    exact locks_idle s _ h (by rw [hphase]; rfl)
  | refused c act _ hphase =>
    refine locks_idle s _ h ?_
    cases hp : (s.calls c).phase with
    | rotate r stage => exact absurd hp (hphase r stage)
    | _ => rfl
  | authorized c rec readAt u hphase | began c r hphase | selected c r start old hphase =>
    exact locks_idle s _ h (by rw [hphase]; rfl)
  | inserted c r start old m => exact hwrite c m.id _ _ rfl
  | updated c r start T hphase hT =>
    rcases s.keys.update_cases T hT with hsame | ⟨_, new, _, _, hT'⟩
    · rw [hsame]
      exact locks_call s h (fun _ _ _ hk => .inl ⟨hk, fun _ => rfl⟩)
    · rw [hT']
      exact hwrite c r.old new _ rfl
  | committed c =>
    refine locks_call s h (fun k c' v hk => ?_)
    -- What is left is locked by others.
    rcases (s.keys.pending_commit_eq_some c c' k v).mp hk with ⟨hbefore, hne⟩
    exact .inl ⟨hbefore, fun heq => absurd heq hne⟩
  | aborted c =>
    refine locks_call s h (fun k c' v hk => ?_)
    rcases (s.keys.pending_rollback_eq_some c c' k v).mp hk with ⟨hbefore, hne⟩
    exact .inl ⟨hbefore, fun heq => absurd heq hne⟩
  | flagged c id committedAt hphase => exact locks_idle s _ h (by rw [hphase]; rfl)

/-- A rotation gets to its insert by its select. -/
theorem insert_moved (hm : AuthMoved d s e t) {c : CallId} {r : Rotation} {start : Time}
    {old : KeyRow} (hphase : (t.calls c).phase = .rotate r (.insert start old)) :
    (s.calls c).phase = .rotate r (.insert start old) ∨
      (e = .call c .next ∧ (s.calls c).phase = .rotate r (.select start) ∧
        s.keys.visible c r.old = some old ∧ t.keys = s.keys ∧ t.now = s.now) := by
  -- A call that goes anywhere else leaves the other calls in place.
  have helse : ∀ c' l, t.calls = Function.update s.calls c' l → l.phase.inserting = false →
      (s.calls c).phase = .rotate r (.insert start old) := by
    intro c' l hcalls hl
    rw [hcalls] at hphase
    by_cases hc : c = c'
    · rw [hc, Function.update_self] at hphase
      rw [hphase] at hl
      exact absurd hl (by simp [AuthPhase.inserting])
    · rw [Function.update_of_ne hc] at hphase
      exact hphase
  cases hm with
  | ticked | rested | created | revoked | dropped => exact .inl hphase
  | started c' job =>
    refine .inl (helse c' _ rfl ?_)
    cases job with
    | request => rfl
    | rotate oldID =>
      simp only [Job.phase]
      cases d.externals.uuidParse oldID with
      | error | ok => rfl
  | selected c' r' start' old' hsel hold =>
    by_cases hc : c = c'
    · rw [hc, s.goto_self c', AuthPhase.rotate.injEq, RotateStage.insert.injEq] at hphase
      rcases hphase with ⟨rfl, rfl, rfl⟩
      rw [hc]
      exact .inr ⟨rfl, hsel, hold, rfl, rfl⟩
    · rw [s.goto_of_ne c' c _ hc] at hphase
      exact .inl hphase
  | committed c' r' act next hcommit hact hnext =>
    refine .inl (helse c' _ rfl ?_)
    rcases hnext with hover | ⟨_, hevict⟩
    · rw [hover]
      rfl
    · rw [hevict]
      rfl
  | hit c' | missed c' | found c' | verified c' | cached c' | refused c' | authorized c'
  | began c' | inserted c' | updated c' | aborted c' | flagged c' =>
    exact .inl (helse c' _ rfl rfl)

/-- What is known along a run: locks belong to rotations past their insert,
    selected keys are alive, and stored successors were born of live keys. -/
structure Lineage (s₀ : AuthState) (es : List AuthEvent) (s : AuthState) : Prop where
  locks : Locks s
  selected : ∀ o, Selected s o → s.alive o = true
  born : ∀ id o row, Stored s.keys id row → row.replacesKeyID = some o → BornAlive d s₀ es id o

theorem lineage_initial (keys : Keys) (ttl now : Time)
    (hkeys : ∀ id row, keys id = some row → row.replacesKeyID = none) :
    Lineage d (AuthState.initial keys ttl now) [] (AuthState.initial keys ttl now) := by
  refine ⟨fun k c v h => ?_, fun o hsel => ?_, fun id o row hst hrep => ?_⟩
  · cases h
  · rcases hsel with ⟨c, r, start, old, hphase, _⟩
    cases hphase
  · rcases hst with hc | ⟨c, hp⟩
    · rw [hkeys id row hc] at hrep
      cases hrep
    · cases hp

/-- A key that is selected after a step was selected before and is kept alive,
    or is selected by this step, which reads an active row. -/
theorem selected_moved (hm : AuthMoved d s e t) (hG : ParentLives d s e) (hlocks : Locks s)
    (hsel : ∀ o, Selected s o → s.alive o = true) (o : Uuid) (h : Selected t o) :
    t.alive o = true := by
  rcases h with ⟨c, r, start, old, hphase, hold⟩
  rcases insert_moved d s t e hm hphase with
    hbefore | ⟨he, hselect, hvis, hkeys, hnow⟩
  · have hso : Selected s o := ⟨c, r, start, old, hbefore, hold⟩
    exact alive_moved d s t e hm hG hlocks o hso (hsel o hso)
  · -- Before its insert the rotation holds no lock, so it read the committed row.
    have hcommitted : s.keys.committed r.old = some old := by
      rw [← s.keys.visible_of_not_owner c r.old (fun v hv => ?_)]
      · exact hvis
      · have hwriting := (hlocks r.old c v hv).2
        rw [hselect] at hwriting
        exact absurd hwriting (by simp [AuthPhase.writing])
    subst he
    have hactive := hG.1 r start old hselect rfl hcommitted
    rw [alive_eq_true, hkeys, hnow, ← hold]
    exact ⟨old, hcommitted, hactive⟩

/-- Every step keeps the invariant, if it lets the parents live. -/
theorem lineage_step {s₀ s s' : AuthState} {es : List AuthEvent} {e : AuthEvent}
    (hrun : run (authStep d) s₀ es = some s) (h : Lineage d s₀ es s) (hG : ParentLives d s e)
    (hs : authStep d s e = some s') : Lineage d s₀ (es ++ [e]) s' := by
  rcases authStep_moved d s s' hs with ⟨t, hm, rfl⟩
  refine ⟨locks_moved d s t e hm h.locks,
    selected_moved d s t e hm hG h.locks h.selected, fun id o row hst hrep => ?_⟩
  unfold BornAlive
  rw [Transition.sometime_snoc]
  rcases stored_moved d s t e hm hst hrep with ⟨row', hst', hrep'⟩ | ⟨hins, hsel⟩
  · exact .inl (h.born id o row' hst' hrep')
  · exact .inr ⟨s, hrun, hins, h.selected o hsel⟩

/-- In every run, from a table without successors, whose rotations select live
    keys that stay alive until the insert, every successor in the table was
    inserted while its predecessor was active. -/
theorem successor_of_live_key (keys : Keys) (ttl now : Time)
    (hkeys : ∀ id row, keys id = some row → row.replacesKeyID = none)
    (es : List AuthEvent) (s : AuthState)
    (hlives : Allowed (authStep d) (ParentLives d) (AuthState.initial keys ttl now) es)
    (hrun : run (authStep d) (AuthState.initial keys ttl now) es = some s)
    (id o : Uuid) (row : KeyRow) (hrow : s.keys.committed id = some row)
    (hrep : row.replacesKeyID = some o) :
    BornAlive d (AuthState.initial keys ttl now) es id o := by
  -- The invariant speaks of the run so far: a successor that is stored now was
  -- inserted at some earlier step.
  have hinv : Lineage d (AuthState.initial keys ttl now) es s :=
    Transition.run_trace_invariant
      (Lineage d (AuthState.initial keys ttl now))
      (lineage_initial d keys ttl now hkeys)
      (fun es t e t' ht hI hG hstep => lineage_step d ht hI hG hstep) es s hlives hrun
  exact hinv.born id o row (.inl hrow) hrep

end Steps

/-- The clock stands still, nothing is revoked or committed, and a row that is
    selected is active. -/
def calm (s : AuthState) : AuthEvent → Bool
  | .tick _ | .revoke _ _ => false
  | .call c _ =>
    match (s.calls c).phase with
    | .rotate r (.select _) => s.alive r.old
    | .rotate _ .commit => false
    | _ => true
  | _ => true

theorem parentLives_of_calm (d : AuthDeployment) (s : AuthState) (e : AuthEvent)
    (h : calm s e = true) : ParentLives d s e := by
  cases e with
  | tick | revoke => exact absurd h (by simp [calm])
  | call =>
    constructor
    · intro r start row hphase _ hrow
      simp only [calm, hphase] at h
      rcases (alive_eq_true s r.old).mp h with ⟨row', hrow', hactive⟩
      rw [Option.some.inj (hrow.symm.trans hrow')]
      exact hactive
    · intro r hphase
      simp only [calm, hphase, Bool.false_eq_true] at h
  | _ => trivial

/-- A rotation of the `dbadmin` key with nothing in between, and its
    successor. -/
theorem rotated_key_has_successor :
    BornAlive openDeployment (AuthState.initial adminKeys 300 0)
      (lookUp 0 true ++ verifyAndPut 0 ++ rotateTo 0 3) 3 1 := by
  refine successor_of_live_key openDeployment adminKeys 300 0 (fun id row hrow => ?_)
    _ _ ?_ rfl 3 1 _ rfl rfl
  · unfold adminKeys at hrow
    by_cases hid : id = 1
    · rw [if_pos hid, Option.some.injEq] at hrow
      rw [← hrow]
    · rw [if_neg hid] at hrow
      cases hrow
  · have hsplit : lookUp 0 true ++ verifyAndPut 0 ++ rotateTo 0 3
        = (lookUp 0 true ++ verifyAndPut 0 ++ (rotateTo 0 3).dropLast) ++ [.call 0 .next] := rfl
    rw [hsplit, Transition.allowed_append]
    constructor
    · exact Transition.allowed_mono (parentLives_of_calm openDeployment)
        (by decide : Allowed (authStep openDeployment) (fun s e => calm s e = true) _ _)
    · intro t ht
      rw [← Option.some.inj ht]
      refine ⟨⟨fun r start row hphase => ?_, fun r hphase hact o row hsel => ?_⟩,
        fun _ _ => trivial⟩
      · cases hphase
      · -- No other call is under way when the rotation commits.
        rcases hsel with ⟨c, r', start, old, hphase', _⟩
        cases c with
        | zero | succ => cases hphase'

/-- A key is looked up and cached, and then revoked from another process. A
    rotation request with its token is let in from the cache, and its successor
    is inserted and committed. -/
theorem revoked_key_has_successor :
    ∃ s row, run (authStep openDeployment) (AuthState.initial adminKeys 300 0)
        (lookUp 0 false ++ verifyAndPut 0 ++
          [.revoke "aa" none, .start 1 (.request adminToken true), .call 1 .next] ++
          rotateTo 1 3) = some s ∧
      s.keys.committed 3 = some row ∧ row.replacesKeyID = some 1 ∧
      ¬ BornAlive openDeployment (AuthState.initial adminKeys 300 0)
        (lookUp 0 false ++ verifyAndPut 0 ++
          [.revoke "aa" none, .start 1 (.request adminToken true), .call 1 .next] ++
          rotateTo 1 3) 3 1 := by
  refine ⟨_, _, rfl, rfl, rfl, ?_⟩
  unfold BornAlive
  decide

end CoopDB
