import CoopDB.Theory.Idempotency.Reclaim

/-!
# Workspaces Do Not See Each Other's Keys

The table, the clock and the purge are shared by all workspaces, and nothing
stops two of them from using the same key string. What keeps them apart is that
every statement names its workspace: the unique key of the table is the pair,
so a request reads, locks and writes only rows of its own workspace.

The result compares two runs. The second is the first without the requests of
the other workspaces; the purges stay. `Transition.run_filter` puts together what is
shown of the steps.

## Main definitions

* `SameFor`: Two states that one workspace cannot tell apart: its rows with their locks
  and its requests with everything they were told are the same.

## Theorems

* `storeCall_agree`, `move_agree`: A step of its own does the same in both runs, since it
  depends only on rows the two tables agree on.
* `foreign_moved`: A step of another workspace changes nothing it can see.
* `workspaces_do_not_interfere`: Without the steps of the others a run is a run, and at
  its end the workspace has the same rows and its requests were told the same.
* `shared_key_strings_do_not_interfere`: Two workspaces with one key string.
-/

namespace CoopDB

open ReadCommitted (Table)
open Transition (run)

section Agreement

variable (x : Externals) (q : Request) (limit : Int) (r : ReqId) (P : Slot → Prop)

/-- A call of the store does the same to two tables that agree on its slot. -/
theorem storeCall_agree {k : Slot} (hk : P k) {T U T' : KeyTable} (h : Table.AgreeOn P T U)
    {l l' : Local} {reply : Reply} (hs : storeCall x q k r T l reply = some (T', l')) :
    ∃ U', storeCall x q k r U l reply = some (U', l') ∧ Table.AgreeOn P T' U' := by
  -- Where the answer is known, only the tables left behind have to agree.
  have hleave : ∀ (V W : KeyTable) (m : Local), Table.AgreeOn P V W →
      some (V, m) = some (T', l') → ∃ U', some (W, m) = some (U', l') ∧ Table.AgreeOn P T' U' := by
    intro V W m hVW heq
    simp only [Option.some.injEq, Prod.mk.injEq] at heq
    exact ⟨W, by rw [heq.2], heq.1 ▸ hVW⟩
  have hcomplete : ∀ c, (T.updateNow k (fun row => some (completed x c row))).map
        (fun V => (V, l.to .returned)) = some (T', l') →
      ∃ U', (U.updateNow k (fun row => some (completed x c row))).map
        (fun V => (V, l.to .returned)) = some (U', l') ∧ Table.AgreeOn P T' U' := by
    intro c heq
    simp only [Option.map_eq_some_iff, Prod.mk.injEq] at heq
    rcases heq with ⟨V, hV, rfl, rfl⟩
    rcases h.updateNow k hk _ V hV with ⟨U', hU, hagree⟩
    exact ⟨U', by rw [hU]; rfl, hagree⟩
  cases reply with
  | ok =>
    simp only [storeCall] at hs ⊢
    cases hphase : l.phase with
    | insert start =>
      simp only [hphase] at hs ⊢
      cases hins : T.insertOnConflictDoNothing r k (q.row r start) with
      | none => rw [hins] at hs; cases hs
      | some p =>
        rcases p with ⟨V, b⟩
        rcases h.insertOnConflictDoNothing r k hk _ V b hins with ⟨U', hU, hagree⟩
        rw [hins] at hs
        rw [hU]
        cases b with
        | true | false => exact hleave V U' _ hagree hs
    | select =>
      simp only [hphase] at hs ⊢
      rw [h.visible r k hk] at hs
      cases hv : U.visible r k with
      | none => rw [hv] at hs; exact hleave _ _ _ (h.rollback r) hs
      | some => rw [hv] at hs; exact hleave _ _ _ h hs
    | delete =>
      simp only [hphase, Option.map_eq_some_iff, Prod.mk.injEq] at hs ⊢
      rcases hs with ⟨V, hV, rfl, rfl⟩
      rcases h.delete r k hk V hV with ⟨U', hU, hagree⟩
      exact ⟨U', ⟨U', hU, rfl, rfl⟩, hagree⟩
    | complete c => simp only [hphase] at hs ⊢; exact hcomplete c hs
    | begin => simp only [hphase] at hs ⊢; exact hleave _ _ _ h hs
    | commitInsert | commitRead | commitDelete =>
      simp only [hphase] at hs ⊢; exact hleave _ _ _ (h.commit r) hs
    | _ => simp only [hphase, reduceCtorEq] at hs
  | fail =>
    simp only [storeCall] at hs ⊢
    cases hphase : l.phase with
    | commitRead ignoreError =>
      simp only [hphase] at hs ⊢
      cases ignoreError with
      | true | false => exact hleave _ _ _ (h.rollback r) hs
    | complete => simp only [hphase] at hs ⊢; exact hleave _ _ _ h hs
    | arrive | execute | returned | crashed => simp only [hphase, reduceCtorEq] at hs
    | _ => simp only [hphase] at hs ⊢; exact hleave _ _ _ (h.rollback r) hs
  | lost =>
    simp only [storeCall] at hs ⊢
    cases hphase : l.phase with
    | commitInsert | commitDelete => simp only [hphase] at hs ⊢; exact hleave _ _ _ (h.commit r) hs
    | complete c => simp only [hphase] at hs ⊢; exact hcomplete c hs
    | _ => simp only [hphase, reduceCtorEq] at hs

/-- A request's step does the same to two tables that agree on its slot. -/
theorem move_agree (hP : ∀ k, q.slot x = some k → P k) {T U T' : KeyTable}
    (h : Table.AgreeOn P T U) {l l' : Local} {a : Act}
    (hm : move x q limit r T l a = some (T', l')) :
    ∃ U', move x q limit r U l a = some (U', l') ∧ Table.AgreeOn P T' U' := by
  cases a with
  | call reply =>
    simp only [move] at hm ⊢
    cases hslot : q.slot x with
    | none => rw [hslot] at hm; cases hm
    | some k =>
      rw [hslot] at hm
      simp only [Option.ite_none_right_eq_some] at hm ⊢
      rcases storeCall_agree x q r P (hP k hslot) h hm.2 with
        ⟨U', hU, hagree⟩
      exact ⟨U', ⟨hm.1, hU⟩, hagree⟩
  | cancel =>
    simp only [move, Option.some.injEq, Prod.mk.injEq] at hm ⊢
    exact ⟨U, ⟨rfl, hm.2⟩, hm.1 ▸ h⟩
  | panic | crash =>
    simp only [move, Option.ite_none_left_eq_some, Option.some.injEq, Prod.mk.injEq] at hm ⊢
    exact ⟨U.rollback r, ⟨hm.1, rfl, hm.2.2⟩, hm.2.1 ▸ h.rollback r⟩
  -- What is left does not touch the table.
  | _ =>
    simp only [move, Option.ite_none_right_eq_some, Option.some.injEq, Prod.mk.injEq] at hm ⊢
    exact ⟨U, ⟨hm.1, rfl, hm.2.2⟩, hm.2.1 ▸ h⟩

/-- A request changes neither rows nor locks outside its own slot. -/
theorem foreign_moved (hP : ∀ k, q.slot x = some k → ¬ P k) {T T' : KeyTable} {l l' : Local}
    {a : Act} (h : Held x q r T l) (hm : Moved x q limit r T l a T' l') :
    Table.AgreeOn P T' T := by
  intro k hk
  have hother : q.slot x ≠ some k := fun hslot => hP k hslot hk
  have hunlocked : ∀ v, T.pending k ≠ some (r, v) := fun v hp => hother (h.write k v hp).1
  have hunlocked' : ∀ v, T'.pending k ≠ some (r, v) := fun v hp =>
    hother ((held_moved h hm).write k v hp).1
  refine ⟨?_, Option.ext fun p => ?_⟩
  · rcases committed_moved h hm k with
      hsame | ⟨_, hslot, _⟩ | ⟨hp, _⟩ | ⟨_, _, hslot, _⟩
    · exact hsame
    · exact absurd hslot hother
    · exact absurd hp (hunlocked none)
    · exact absurd hslot hother
  · rcases p with ⟨r', v⟩
    by_cases hr : r' = r
    · subst hr
      exact ⟨fun hp => absurd hp (hunlocked' v), fun hp => absurd hp (hunlocked v)⟩
    · exact pending_moved_of_ne hm hr k v

end Agreement

section Workspace

variable (d : Deployment) (W : Uuid)

/-- The request is made for workspace `W`. -/
def Deployment.ofWorkspace (r : ReqId) : Bool :=
  match d.externals.uuidParse (d.requests r).workspaceID with
  | .ok ws => ws == W
  | .error _ => false

/-- The event is left in the run of workspace `W` alone: a step of one of its
    requests, or a purge. -/
def Event.ofWorkspace : Event → Bool
  | .request r _ => d.ofWorkspace W r
  | .purge _ => true

/-- Workspace `W` cannot tell the two states apart. -/
structure SameFor (s t : Gateway) : Prop where
  table : Table.AgreeOn (fun k => k.1 = W) s.table t.table
  reqs : ∀ r, d.ofWorkspace W r = true → s.reqs r = t.reqs r

/-- A request's slot lies in its workspace. -/
theorem slot_ofWorkspace {r : ReqId} {k : Slot} (hslot : d.slot r = some k) :
    d.ofWorkspace W r = true ↔ k.1 = W := by
  simp only [Deployment.slot, Request.slot] at hslot
  split at hslot
  · cases hslot
  · cases hparse : d.externals.uuidParse (d.requests r).workspaceID with
    | error => rw [hparse] at hslot; exact absurd hslot (by simp)
    | ok =>
      rw [hparse] at hslot
      simp only [Option.some.injEq] at hslot
      simp [Deployment.ofWorkspace, hparse, ← hslot]

/-- A step of the workspace's own does the same in both states. -/
theorem sameFor_own {s t s' : Gateway} {e : Event} (h : SameFor d W s t)
    (he : e.ofWorkspace d W = true) (hs : step d s e = some s') :
    ∃ t', step d t e = some t' ∧ SameFor d W s' t' := by
  cases e with
  | purge =>
    simp only [step, Option.some.injEq] at hs ⊢
    exact ⟨_, rfl, hs ▸ ⟨h.table.deleteWhere _, h.reqs⟩⟩
  | request r a =>
    simp only [step, Option.map_eq_some_iff] at hs ⊢
    rcases hs with ⟨⟨T', l'⟩, hm, rfl⟩
    have hin : ∀ k, (d.requests r).slot d.externals = some k → k.1 = W :=
      fun k hslot => (slot_ofWorkspace d W hslot).mp he
    rcases move_agree _ _ _ r _ hin h.table hm with ⟨U', hU, hagree⟩
    rw [h.reqs r he] at hU
    refine ⟨_, ⟨(U', l'), hU, rfl⟩, hagree, fun r' hr' => ?_⟩
    by_cases hr : r' = r
    · subst hr
      simp
    · simp only [Function.update_of_ne hr]
      exact h.reqs r' hr'

/-- A step of another workspace changes nothing the workspace can see. -/
theorem sameFor_foreign {s t s' : Gateway} {e : Event} (hsound : Sound d s)
    (h : SameFor d W s t) (he : e.ofWorkspace d W = false) (hs : step d s e = some s') :
    SameFor d W s' t := by
  rcases step_cases hs with ⟨r, a, T', l', rfl, hm, rfl⟩ | ⟨now, rfl, _⟩
  · have hout : ∀ k, (d.requests r).slot d.externals = some k → ¬ k.1 = W := by
      intro k hslot hk
      rw [Event.ofWorkspace, (slot_ofWorkspace d W hslot).mpr hk] at he
      cases he
    have hframe := foreign_moved _ _ _ r _ hout (hsound.held r) hm
    refine ⟨fun k hk => ?_, fun r' hr' => ?_⟩
    · rcases hframe k hk with ⟨hc, hp⟩
      rcases h.table k hk with ⟨hc', hp'⟩
      exact ⟨hc.trans hc', hp.trans hp'⟩
    · -- The request that moved is not one of the workspace's.
      have hne : r' ≠ r := by
        rintro rfl
        exact nomatch (hr'.symm.trans he)
      simp only [Function.update_of_ne hne]
      exact h.reqs r' hr'
  · cases he

/-- Take any run of requests and purges from any table without open
    transactions, and leave out every step of a request that is not made for
    workspace `W`. What remains is a run, and at its end every request of `W`
    is where it was and was told what it was told, and the rows of `W` are the
    same. A part of a run from the start is a run, so this holds at every point
    on the way. -/
theorem workspaces_do_not_interfere (committed : Slot → Option Row) (es : List Event)
    (s : Gateway) (hrun : run (step d) (holding committed) es = some s) :
    ∃ t, run (step d) (holding committed) (es.filter (Event.ofWorkspace d W)) = some t ∧
      (∀ r, d.ofWorkspace W r = true → t.reqs r = s.reqs r) ∧
      (∀ key, t.table.committed (W, key) = s.table.committed (W, key)) := by
  have hsame : SameFor d W (holding committed) (holding committed) :=
    ⟨fun _ _ => ⟨rfl, rfl⟩, fun _ _ => rfl⟩
  rcases Transition.run_filter (Event.ofWorkspace d W) (Sound d) (SameFor d W)
    (fun s e s' => sound_step) (fun s t e s' _ hR he hs => sameFor_own d W hR he hs)
    (fun s t e s' hI hR he hs => sameFor_foreign d W hI hR he hs)
    es _ _ s (sound_holding d committed) hsame hrun with ⟨t, ht, hR⟩
  exact ⟨t, ht, fun r hr => (hR.reqs r hr).symm, fun key => (hR.table (W, key) rfl).1.symm⟩

end Workspace

/-- Two workspaces that use one key string: even requests are made for the
    first, odd ones for the second. -/
def twoWorkspaces : Deployment :=
  { externals := { storedExternals with uuidParse := fun w => .ok (if w = "a" then 0 else 1) }
    requests := fun r =>
      { endpoint := .sqlExecute, workspaceID := if r % 2 = 0 then "a" else "b"
        idempotencyKey := "k", requestHash := "h", ttl := idempotencyTTL }
    maxResponseBodyBytes := 0 }

/-- Both workspaces reserve the key at the same time; the second completes
    first, and a retry of the first comes when the purge has run. -/
def twoWorkspacesRun : List Event :=
  [.request 0 .enter, .request 1 .enter, .reply 0 0, .reply 1 0, .reply 0 1, .reply 1 1,
    .reply 1 2, .reply 0 2,
    .request 1 (.execute (.sql (.error (.other "boom")))), .reply 1 3,
    .request 0 (.execute (.sql (.error (.other "bang")))),
    .request 2 .enter, .reply 2 4, .reply 2 5, .reply 0 6, .purge 7, .reply 2 8, .reply 2 9]

/-- The retry is told the same without the other workspace's request. -/
theorem shared_key_strings_do_not_interfere :
    ∃ s, run (step twoWorkspaces) (holding (fun _ => none)) twoWorkspacesRun = some s ∧
      ∃ t, run (step twoWorkspaces) (holding (fun _ => none))
          (twoWorkspacesRun.filter (Event.ofWorkspace twoWorkspaces 0)) = some t ∧
        t.reqs 2 = s.reqs 2 := by
  have hends : (run (step twoWorkspaces) (holding (fun _ => none)) twoWorkspacesRun).isSome := by
    decide
  rcases Option.isSome_iff_exists.mp hends with ⟨s, hs⟩
  rcases workspaces_do_not_interfere twoWorkspaces 0 (fun _ => none) twoWorkspacesRun s hs with
    ⟨t, ht, hreqs, _⟩
  exact ⟨s, hs, t, ht, hreqs 2 (by decide)⟩

end CoopDB
