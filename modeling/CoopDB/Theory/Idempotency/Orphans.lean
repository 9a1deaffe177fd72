import CoopDB.Theory.Idempotency.Reclaim

/-!
# Reservations and the Handlers That Made Them

A pending row blocks its key until it expires, so it should not outlive the
handler that inserted it. Every exit of the two handlers that returns by itself
calls `Complete` first. Two exits do not return by themselves.

`Complete` is called with the context of the request. Once the client is gone
the context is cancelled, the update fails, the handler logs that and returns,
and the row stays pending. It does not take a slow statement: the reply of a
successful statement is written before `Complete` is called. A panic in the execution
passes `Complete` by and ends in `Recoverer`.

## Main definitions

* `Phase.reserving`: The request has reserved and has not completed.
* `Healthy`: No process crashes, and calls fail only for a cancelled context.
* `Attended`: No request is cut off while it is reserving.
* `Orphaned`: A pending row whose handler is over.

## Theorems

* `manned_step`: A step leaves every pending row its handler.
* `reservation_has_handler`: In a healthy gateway, with rows expiring, being purged and
  being reclaimed in any order, no attended run reaches an orphaned row.
* `disconnect_orphans_reservation`: A client that disconnects too early.
-/

namespace CoopDB

open ReadCommitted (Table)
open Transition (run Allowed Always)

/-- The request has reserved its slot and has not completed it yet. -/
def Phase.reserving : Phase → Bool
  | .execute | .complete _ => true
  | _ => false

/-- No process crashes, and a database call fails only when its context is
    cancelled. -/
def Healthy (s : Gateway) : Event → Prop
  | .request _ .crash => False
  | .request r (.call (.fail _)) => (s.reqs r).cancelled = true
  | .request _ (.call (.lost _)) => False
  | _ => True

instance (s : Gateway) (e : Event) : Decidable (Healthy s e) :=
  match e with
  | .request _ .crash | .request _ (.call (.lost _)) => isFalse not_false
  | .request r (.call (.fail _)) => inferInstanceAs (Decidable ((s.reqs r).cancelled = true))
  | .purge _ | .request _ .enter | .request _ .reject | .request _ (.call (.ok _))
  | .request _ (.execute _) | .request _ .panic | .request _ .cancel => isTrue trivial

/-- No request is cancelled and none panics between its reservation and its
    `Complete`. -/
def Attended (d : Deployment) (s : Gateway) : Event → Prop
  | .request r .cancel | .request r .panic =>
    d.slot r ≠ none → (s.reqs r).phase.reserving = false
  | _ => True

instance (d : Deployment) (s : Gateway) (e : Event) : Decidable (Attended d s e) :=
  match e with
  | .request r .cancel | .request r .panic =>
    inferInstanceAs (Decidable (d.slot r ≠ none → (s.reqs r).phase.reserving = false))
  | .purge _ | .request _ .enter | .request _ .reject | .request _ (.call _)
  | .request _ (.execute _) | .request _ .crash => isTrue trivial

/-- Some row is pending although the handler that inserted it is over. -/
def Orphaned (s : Gateway) : Prop :=
  ∃ k row, s.table.committed k = some row ∧ row.state = .pending ∧
    (s.reqs row.id).phase.over = true

/-- Every pending row belongs to a request that is still to complete it, with a
    context that lets it. -/
structure Manned (d : Deployment) (s : Gateway) : Prop where
  sound : Sound d s
  handler : ∀ k row, s.table.committed k = some row → row.state = .pending →
    d.slot row.id = some k ∧ (s.reqs row.id).phase.reserving = true ∧
      (s.reqs row.id).cancelled = false

section

variable (d : Deployment)

/-- A request that reserves keeps its handler through a healthy and attended
    step of its own, or completes. -/
theorem reserving_moved {s : Gateway} {r : ReqId} {a : Act} {T' : KeyTable} {l' : Local} {k : Slot}
    (hslot : d.slot r = some k) (hhealthy : Healthy s (.request r a))
    (hatt : Attended d s (.request r a)) (hres : (s.reqs r).phase.reserving = true)
    (hlive : (s.reqs r).cancelled = false)
    (hm : Moved d.externals (d.requests r) d.maxResponseBodyBytes r s.table (s.reqs r) a T' l') :
    (l'.phase.reserving = true ∧ l'.cancelled = false) ∨
      ∃ c, s.table.updateNow k (fun row => some (completed d.externals c row)) = some T' := by
  have hcut : d.slot r ≠ none := by simp [hslot]
  -- From the two reserving phases a request executes, completes or is cut off.
  cases hm with
  | executed =>
    have hkey := idempotencyKey_ne_empty hslot
    unfold Local.executed
    rw [if_neg hkey]
    exact .inl ⟨rfl, hlive⟩
  | completed reply k' c T' hslot' hphase hT =>
    rw [Deployment.slot, hslot', Option.some.injEq] at hslot
    exact .inr ⟨c, hslot ▸ hT⟩
  | completeFailed => exact absurd (hlive.symm.trans hhealthy) (by decide)
  | panicked | cancelled => exact absurd (hres.symm.trans (hatt hcut)) (by decide)
  | crashed | commitLost => exact absurd hhealthy not_false
  | failed e hphase =>
    cases hp : (s.reqs r).phase <;> simp [hp, Phase.reserving, Phase.inStore] at hres hphase
  | entered hphase | rejected hphase | began now hphase | inserted k' start now hslot' hphase
  | conflicted k' start now old hslot' hphase | insertCommitted now hphase
  | missed k' now hslot' hphase | selected k' now row hslot' hphase
  | answered reply T' ignoreError b hphase | deleted k' now T' hslot' hphase
  | deleteCommitted now hphase => simp [hphase, Phase.reserving] at hres

/-- One healthy and attended step keeps every pending row manned. -/
theorem manned_step (s : Gateway) (e : Event) (s' : Gateway) (h : Manned d s)
    (hg : Healthy s e ∧ Attended d s e) (hs : step d s e = some s') : Manned d s' := by
  refine ⟨sound_step h.sound hs, fun k row hrow hstate => ?_⟩
  rcases step_cases hs with ⟨r, a, T', l', rfl, hm, rfl⟩ | ⟨now, rfl, rfl⟩
  · rcases committed_moved (h.sound.held r) hm k with
      hsame | ⟨start, hslot, _, hnew, hto⟩ | ⟨_, hnew⟩ | ⟨c, old, _, _, _, _, hnew⟩
    · have hold : s.table.committed k = some row := hsame.symm.trans hrow
      rcases h.handler k row hold hstate with ⟨hslot, hres, hlive⟩
      refine ⟨hslot, ?_⟩
      by_cases hr : row.id = r
      · simp only [hr, Function.update_self]
        rw [hr] at hslot hres hlive
        rcases reserving_moved d hslot hg.1 hg.2 hres hlive hm with hkept | ⟨c, hT⟩
        · exact hkept
        · -- `Complete` found the row, so it is not pending any more.
          simp only [Table.updateNow, hold, Option.bind_some] at hT
          cases hp : s.table.pending k with
          | some => rw [hp] at hT; exact absurd hT (by simp)
          | none =>
            rw [hp] at hT
            cases hT
            simp only [Function.update_self, Option.some.injEq] at hrow
            exact absurd (hrow ▸ hstate) (completed_state_ne_pending d c row)
      · simp only [Function.update_of_ne hr]
        exact ⟨hres, hlive⟩
    · -- A row is committed together with the answer that starts the execution,
      -- or by a commit whose answer is lost.
      rw [hnew, Option.some.injEq] at hrow
      subst hrow
      rcases hto with ⟨rfl, hlive⟩ | ⟨detail, rfl⟩
      · refine ⟨hslot, ?_⟩
        simp only [Request.row, Function.update_self]
        exact ⟨rfl, hlive⟩
      · exact absurd hg.1 not_false
    · rw [hnew] at hrow
      cases hrow
    · rw [hnew, Option.some.injEq] at hrow
      exact absurd (hrow ▸ hstate) (completed_state_ne_pending d c old)
  · exact h.handler k row (committed_of_purge hrow) hstate

/-- In a healthy gateway, over every interleaving in which no request is
    cancelled and none panics between its reservation and its `Complete`, no
    state has a pending row whose handler is over. -/
theorem reservation_has_handler (es : List Event)
    (hg : Allowed (step d) (fun s e => Healthy s e ∧ Attended d s e) initial es) :
    Always (step d) (fun s => ¬ Orphaned s) initial es := by
  have hinit : Manned d initial :=
    ⟨sound_initial d, fun k row hrow _ => absurd hrow (by simp [initial])⟩
  refine Transition.always_mono (fun s h => ?_) initial
    (Transition.always_of_invariant (Manned d) (manned_step d) initial hinit hg)
  rintro ⟨k, row, hrow, hstate, hover⟩
  rcases h.handler k row hrow hstate with ⟨_, hres, _⟩
  cases hp : (s.reqs row.id).phase <;> simp [hp, Phase.over, Phase.reserving] at hover hres

end

/-- One request from its reservation to its `Complete`. The client disconnects
    after that. -/
def completedRun : List Event :=
  [.request 0 .enter, .reply 0 0, .reply 0 1, .reply 0 2,
    .request 0 (.execute (.sql (.error (.other "boom")))), .reply 0 3, .request 0 .cancel]

/-- No state of it has an orphaned row. -/
theorem complete_leaves_no_orphan :
    Always (step sharedKey) (fun s => ¬ Orphaned s) initial completedRun :=
  reservation_has_handler sharedKey completedRun (by decide)

/-- The client reads the reply, which is written before `Complete` is called,
    and disconnects. -/
def disconnectRun : List Event :=
  [.request 0 .enter, .reply 0 0, .reply 0 1, .reply 0 2,
    .request 0 (.execute (.sql (.ok { command := "DELETE", columns := [], rows := []
                                      rowsAffected := 1, durationMS := 0 }))),
    .request 0 .cancel, .request 0 (.call (.fail "context canceled"))]

/-- The handler has returned and its row is still pending. -/
theorem disconnect_orphans_reservation :
    ∃ s, run (step sharedKey) initial disconnectRun = some s ∧
      Allowed (step sharedKey) Healthy initial disconnectRun ∧ Orphaned s :=
  ⟨_, rfl, by decide, (0, "k"), _, rfl, rfl, rfl⟩

end CoopDB
