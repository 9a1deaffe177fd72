import CoopDB.Core.RequestHash
import CoopDB.Theory.Idempotency.AtMostOnce

/-!
# The Hash Tells Requests Apart

Which requests under one idempotency key the store takes for the same.

`HashRequest` is injective up to the digest: its separators can be found again in
what it hashes. The rest is a matter of the table. A row is written by one insert,
and what happens to it later changes neither its hash nor its owner.

SHA-256 has collisions, so it cannot be assumed injective. What is assumed is that
the requests of the run at hand do not collide.

## Main definitions

* `CollisionFree`: No two requests of the run collide.
* `Tagged`: Every row carries the hash of the request that inserted it.

## Theorems

* `tagged_step`: Every step keeps `Tagged`.
* `conflict_iff_not_agrees`: A request is refused as a conflict exactly if it differs
  from the one that holds its key.
-/

namespace CoopDB

open ReadCommitted (Table)
open Transition (run)

/-- Among the requests, different inputs of the hasher have different
    digests. -/
def CollisionFree (sent : ReqId → RequestPayload) : Prop :=
  ∀ r r', Sha256.sum256 (sent r).input = Sha256.sum256 (sent r').input →
    (sent r).input = (sent r').input

/-- Without collisions the hash decides whether two requests agree. -/
theorem CollisionFree.hash_eq_iff (sent : ReqId → RequestPayload) (h : CollisionFree sent)
    (r r' : ReqId) : (sent r).hash = (sent r').hash ↔ (sent r).Agrees (sent r') := by
  rw [RequestPayload.hash_eq_iff, ← RequestPayload.input_eq_iff]
  exact ⟨h r r', congrArg Sha256.sum256⟩

section

variable (d : Deployment)

/-- Every row lies in the slot of the request that inserted it and carries that
    request's hash. -/
def Tagged (T : KeyTable) : Prop :=
  ∀ k row, T.committed k = some row →
    d.slot row.id = some k ∧ row.requestHash = (d.requests row.id).requestHash

/-- The insert tags the row, `Complete` leaves the tag alone, and no other
    statement writes one. -/
theorem tagged_step (s s' : Gateway) (e : Event) (hsound : Sound d s) (h : Tagged d s.table)
    (hs : step d s e = some s') : Tagged d s'.table := by
  intro k row hrow
  rcases step_cases hs with ⟨r, a, T', l', rfl, hm, rfl⟩ | ⟨now, rfl, rfl⟩
  · rcases committed_moved (hsound.held r) hm k with
      hsame | ⟨start, hslot, _, hnew, _⟩ | ⟨_, hgone⟩ | ⟨c, old, _, _, _, hold, hnew⟩
    · exact h k row (hsame ▸ hrow)
    · obtain rfl : (d.requests r).row r start = row := Option.some.inj (hnew.symm.trans hrow)
      exact ⟨hslot, rfl⟩
    · exact nomatch (hgone.symm.trans hrow)
    · obtain rfl : completed d.externals c old = row := Option.some.inj (hnew.symm.trans hrow)
      exact h k old hold
  · exact h k row (committed_of_purge hrow)

/-- In every run, from the empty table on, the rows are tagged. -/
theorem tagged_run (es : List Event) (s : Gateway) (hrun : run (step d) initial es = some s) :
    Sound d s ∧ Tagged d s.table := by
  refine Transition.run_kept (fun s => Sound d s ∧ Tagged d s.table)
    ⟨sound_initial d, fun k row hrow => ?_⟩ (fun t e t' h ht => ?_) hrun
  · cases hrow
  · exact ⟨sound_step h.1 ht, tagged_step d t t' e h.1 h.2 ht⟩

/-- What a successful select leads to. -/
theorem select_step {s s' : Gateway} {r : ReqId} {k : Slot} {row : Row} {now : Time}
    (hslot : d.slot r = some k) (hphase : (s.reqs r).phase = .select)
    (hrow : s.table.visible r k = some row)
    (hs : step d s (.request r (.call (.ok now))) = some s') :
    s'.reqs r = (s.reqs r).judged (judge d.externals row (d.requests r).requestHash now) := by
  have hslot' : (d.requests r).slot d.externals = some k := hslot
  simp only [step, move, hslot', storeCall, hphase, hrow, Option.map_eq_some_iff] at hs
  rcases hs with ⟨p, hp, rfl⟩
  split at hp
  · obtain rfl := Option.some.inj hp
    exact Function.update_self _ _ _
  · cases hp

/-- Of a row that is still valid, only the hash makes a conflict. -/
theorem judge_conflict_iff (x : Externals) (row : Row) (requestHash : String) (now : Time)
    (hlive : now ≤ row.expiresAt) :
    judge x row requestHash now = .refuse .conflict ↔ row.requestHash ≠ requestHash := by
  rw [judge, if_neg (Int.not_lt.mpr hlive)]
  by_cases hhash : row.requestHash = requestHash
  · rw [if_neg (not_not.mpr hhash)]
    refine iff_of_false ?_ (not_not.mpr hhash)
    split
    · simp [Verdict.refuse.injEq]
    · simp
  · rw [if_pos hhash]
    exact iff_of_true rfl hhash

/-- The request goes on to return the conflict exactly if it was judged one. -/
theorem judged_conflict_iff (l : Local) (v : Verdict) :
    (l.judged v).phase = .commitRead true (.error .conflict) ↔ v = .refuse .conflict := by
  cases v with
  | reclaim => simp [Local.judged, Local.to]
  | refuse => simp [Local.judged, Local.to, Phase.commitRead.injEq, Verdict.refuse.injEq]
  | serve => simp [Local.judged, Local.to, Phase.commitRead.injEq]

variable (sent : ReqId → RequestPayload)

/-- Two requests have one input of the hasher exactly if they agree in method,
    path and raw body. If the requests of a run do not collide, then in every
    state of it a request that selects a row still valid finds the row of a
    request under its own key, and goes on to return a conflict exactly if it
    does not agree with that request. -/
theorem conflict_iff_not_agrees (hsent : ∀ r, (d.requests r).requestHash = (sent r).hash)
    (hfree : CollisionFree sent) :
    (∀ p q : RequestPayload, p.input = q.input ↔
      p.method = q.method ∧ p.path = q.path ∧ p.body = q.body) ∧
    ∀ (es : List Event) (s s' : Gateway) (r : ReqId) (k : Slot) (row : Row) (now : Time),
      run (step d) initial es = some s → d.slot r = some k → (s.reqs r).phase = .select →
      s.table.visible r k = some row → now ≤ row.expiresAt →
      step d s (.request r (.call (.ok now))) = some s' →
      d.slot row.id = some k ∧
        ((s'.reqs r).phase = .commitRead true (.error .conflict) ↔
          ¬ ((sent row.id).method = (sent r).method ∧ (sent row.id).path = (sent r).path ∧
            (sent row.id).body = (sent r).body)) := by
  refine ⟨RequestPayload.input_eq_iff, ?_⟩
  intro es s s' r k row now hrun hslot hphase hrow hlive hs
  obtain ⟨hsound, htagged⟩ := tagged_run d es s hrun
  -- In this phase the request holds no write of its own, so it sees a committed row.
  have hcommitted : s.table.committed k = some row := by
    rw [← (hsound.held r).visible_eq_committed (by rw [hphase]; rfl), hrow]
  obtain ⟨howner, hhash⟩ := htagged k row hcommitted
  refine ⟨howner, ?_⟩
  rw [select_step d hslot hphase hrow hs, judged_conflict_iff,
    judge_conflict_iff d.externals row _ now hlive, hhash, hsent, hsent, ne_eq,
    hfree.hash_eq_iff sent]
  exact Iff.rfl

end

/-- Two bodies that differ by a space, under one key. -/
def spacedBodies : ReqId → RequestPayload :=
  fun r =>
    { method := [0x50, 0x4f, 0x53, 0x54]
      path := [0x2f, 0x76, 0x31]
      body := if r = 0 then [0x7b, 0x7d] else [0x7b, 0x20, 0x7d]
      method_nul := by decide
      path_nul := by decide }

/-- The deployment they are sent to. -/
def spacedDeployment : Deployment :=
  { externals := storedExternals
    requests := fun r =>
      { endpoint := .sqlExecute, workspaceID := "", idempotencyKey := "k"
        requestHash := (spacedBodies r).hash, ttl := idempotencyTTL }
    maxResponseBodyBytes := 0 }

/-- The first request reserves the key, the second finds it taken. -/
def spacedRun : List Event :=
  [.request 0 .enter, .reply 0 0, .reply 0 1, .reply 0 2,
    .request 1 .enter, .reply 1 3, .reply 1 4]

/-- The two digests, computed. -/
theorem collisionFree_spacedBodies : CollisionFree spacedBodies := by
  have hdigests : Sha256.sum256 (spacedBodies 0).input ≠ Sha256.sum256 (spacedBodies 1).input := by
    decide +kernel
  have hsecond : ∀ r, r ≠ 0 → (spacedBodies r).input = (spacedBodies 1).input := by
    intro r hr
    simp [spacedBodies, RequestPayload.input, if_neg hr]
  intro r r' h
  by_cases hr : r = 0
  · by_cases hr' : r' = 0
    · rw [hr, hr']
    · rw [hr, hsecond r' hr'] at h
      exact absurd h hdigests
  · by_cases hr' : r' = 0
    · rw [hr', hsecond r hr] at h
      exact absurd h.symm hdigests
    · rw [hsecond r hr, hsecond r' hr']

/-- The second request is told of the conflict. -/
theorem spaced_bodies_conflict :
    ∃ s s', run (step spacedDeployment) initial spacedRun = some s ∧
      step spacedDeployment s (.reply 1 5) = some s' ∧
      (s'.reqs 1).phase = .commitRead true (.error .conflict) := by
  have h := (conflict_iff_not_agrees spacedDeployment spacedBodies (fun _ => rfl)
    collisionFree_spacedBodies).2 spacedRun _ _ 1 (0, "k") _ 5 rfl rfl rfl rfl (by decide) rfl
  exact ⟨_, _, rfl, rfl, h.2.mpr (by decide)⟩

end CoopDB
