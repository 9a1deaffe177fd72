import CoopDB.Theory.Idempotency.AtMostOnce

/-!
# No Deadlock on the Idempotency Rows

A request waits where its insert, its delete or its update finds the row under the
uncommitted write of another. The one it waits for is about to end its transaction,
and no database call of that kind waits for anybody, so a chain of waiting requests
has one link.

## Theorems

* `storeCall_of_writing`: Whatever the database answers the holder, the row is free
  afterwards.
* `storeCall_waits`: Who is held up is held up by a row that another holds.
* `no_deadlock`: In every reachable state the two hold together, and every call can be
  given up.
-/

namespace CoopDB

open Transition (run)

/-- The next thing the request does is a database call. -/
def Phase.calling : Phase → Bool
  | .arrive | .execute | .returned | .crashed => false
  | _ => true

section

variable (x : Externals) (q : Request) (k : Slot) (r : ReqId) (T : KeyTable) (l : Local)

/-- A request that is about to end its transaction does so, whatever the answer. -/
theorem storeCall_of_writing (hwriting : l.phase.writing = true) (reply : Reply) :
    ∃ T' l', storeCall x q k r T l reply = some (T', l') ∧ T'.pending = T.release r := by
  cases hphase : l.phase with
  | commitInsert | commitDelete =>
    cases reply with
    | ok | fail | lost =>
      simp only [storeCall, hphase]
      exact ⟨_, _, rfl, rfl⟩
  | _ => exact absurd hwriting (by simp [hphase, Phase.writing])

/-- Any other call succeeds, or finds the row under a write that is not its own. -/
theorem storeCall_waits (hcalling : l.phase.calling = true) (now : Time)
    (hwaits : storeCall x q k r T l (.ok now) = none) :
    (∃ u v, T.pending k = some (u, v)) ∧ (T.free r k = false ∨ ∃ c, l.phase = .complete c) := by
  have hlocked : T.free r k = false → ∃ u v, T.pending k = some (u, v) := by
    intro hfree
    rcases hp : T.pending k with _ | ⟨u, v⟩
    · rw [ReadCommitted.Table.free, hp] at hfree
      cases hfree
    · exact ⟨u, v, rfl⟩
  cases hphase : l.phase with
  | insert start =>
    cases hfree : T.free r k with
    | false => exact ⟨hlocked hfree, .inl rfl⟩
    | true =>
      simp only [storeCall, hphase, ReadCommitted.Table.insertOnConflictDoNothing, hfree] at hwaits
      cases hrow : T.visible r k <;> simp [hrow] at hwaits
  | delete =>
    simp only [storeCall, hphase, ReadCommitted.Table.delete, Option.map_eq_none_iff] at hwaits
    cases hfree : T.free r k with
    | false => exact ⟨hlocked hfree, .inl rfl⟩
    | true => cases hrow : T.visible r k <;> simp [hrow, hfree] at hwaits
  | complete c =>
    simp only [storeCall, hphase, Option.map_eq_none_iff, ReadCommitted.Table.updateNow] at hwaits
    rcases hp : T.pending k with _ | ⟨u, v⟩
    · cases hrow : T.committed k <;> simp [hrow, hp] at hwaits
    · exact ⟨⟨u, v, rfl⟩, .inr ⟨c, rfl⟩⟩
  | select =>
    cases hrow : T.visible r k <;> simp [storeCall, hphase, hrow] at hwaits
  | begin | commitInsert | commitRead | commitDelete => simp [storeCall, hphase] at hwaits
  | arrive | execute | returned | crashed => simp [hphase, Phase.calling] at hcalling

end

/-- In every reachable state, whoever holds a row can end its transaction whatever the
    database answers, which frees the row. A request whose next call is held up is
    held up by such a request, and every call can be given up. -/
theorem no_deadlock (d : Deployment) (es : List Event) (s : Gateway)
    (hrun : run (step d) initial es = some s) :
    (∀ k r v, s.table.pending k = some (r, v) →
      ∀ reply : Reply, reply.possible (s.reqs r).cancelled = true →
        ∃ s', step d s (.request r (.call reply)) = some s' ∧ s'.table.pending k = none) ∧
    (∀ r k now, d.slot r = some k → (s.reqs r).phase.calling = true →
      (s.reqs r).cancelled = false → step d s (.request r (.call (.ok now))) = none →
        ∃ r' v, r' ≠ r ∧ s.table.pending k = some (r', v)) ∧
    (∀ r k e, d.slot r = some k → (s.reqs r).phase.calling = true →
      ∃ s', step d s (.request r (.call (.fail e))) = some s') := by
  have hsound := Transition.run_kept (Sound d) (sound_initial d)
    (fun t e t' h hs => sound_step h hs) hrun
  refine ⟨fun k r v hp reply hpossible => ?_, fun r k now hslot hcalling hlive hwaits => ?_,
    fun r k e hslot hcalling => ?_⟩
  -- A lock is held between a write and its commit, and a commit never waits.
  · have hwrite := (hsound.held r).write k v hp
    have hwriting : (s.reqs r).phase.writing = true := by
      rcases hwrite.2 with ⟨hphase, _⟩ | ⟨hphase, _⟩ <;> rw [hphase] <;> rfl
    rcases storeCall_of_writing d.externals (d.requests r) k r s.table (s.reqs r) hwriting reply
      with ⟨T', l', hcall, hpending⟩
    refine ⟨{ table := T', reqs := Function.update s.reqs r l' }, ?_, ?_⟩
    · simp [step, move, hwrite.1, hpossible, hcall]
    · simp [hpending, ReadCommitted.Table.release, hp]
  · have hcall : storeCall d.externals (d.requests r) k r s.table (s.reqs r) (.ok now) = none := by
      rw [Deployment.slot] at hslot
      simpa [step, move, hslot, Reply.possible, hlive] using hwaits
    rcases storeCall_waits d.externals (d.requests r) k r s.table (s.reqs r) hcalling now hcall
      with ⟨⟨u, v, hp⟩, hother⟩
    refine ⟨u, v, ?_, hp⟩
    rintro rfl
    rcases hother with hfree | ⟨c, hphase⟩
    · simp [ReadCommitted.Table.free, hp] at hfree
    · exact (hsound.held u).none_pending (by rw [hphase]; rfl) k v hp
  · rw [Deployment.slot] at hslot
    cases hphase : (s.reqs r).phase with
    | arrive | execute | returned | crashed => simp [hphase, Phase.calling] at hcalling
    | commitRead ignoreError =>
      cases ignoreError <;> simp [step, move, hslot, Reply.possible, storeCall, hphase]
    | _ => simp [step, move, hslot, Reply.possible, storeCall, hphase]

/-- Two requests with one key. The first has inserted its row and not committed. -/
def waitingRun : List Event :=
  [.request 0 .enter, .reply 0 0, .reply 0 1, .request 1 .enter, .reply 1 2]

/-- The insert of the second waits for the first, whose commit frees the row. -/
theorem waiting_insert :
    ∃ s, run (step sharedKey) initial waitingRun = some s ∧
      step sharedKey s (.reply 1 3) = none ∧
      (∃ r' v, r' ≠ 1 ∧ s.table.pending (0, "k") = some (r', v)) ∧
      ∃ s', step sharedKey s (.reply 0 4) = some s' ∧ s'.table.pending (0, "k") = none := by
  have h := no_deadlock sharedKey waitingRun _ rfl
  exact ⟨_, rfl, rfl, h.2.1 1 (0, "k") 3 rfl rfl rfl rfl, h.1 (0, "k") 0 _ rfl (.ok 4) rfl⟩

end CoopDB
