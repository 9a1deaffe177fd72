import CoopDB.Core.Gateway
import CoopDB.Lib.Transition

/-!
# What One Step Can Do

The inversion of `step`. Every invariant of the idempotency store is a case analysis
over `Moved` and never unfolds the step function again.

Two invariants hold in every run and are used everywhere. `Held` ties the
uncommitted writes of the table to the requests that hold them: a request holds
one only between its insert or delete and the commit that follows. `Coherent`
ties what a request was told to where it is: only a request that was told to
execute gets to the execution, and what it passed to `Complete` is fixed from
then on.

## Main definitions

* `Moved`: The transitions of one request, each with the phase it starts from and the
  table and the local state it leaves.
* `CameFrom`: The ways into a phase.
* `Held`, `Coherent`, `Sound`: The two invariants, and both of every request.

## Theorems

* `move_moved`: `Moved` is everything `move` does.
* `step_cases`: A step moves one request or purges.
* `held_moved`, `coherent_moved`, `sound_step`: The two invariants are kept.
* `committed_moved`, `pending_moved_self`, `pending_moved_of_ne`: What a step does to the
  table.
* `phase_moved`, `fresh_moved`, `begun_moved`: How a request gets to a phase and to its
  answer.
* `told_step`: What a request was told and what it passed on do not change.
-/

namespace CoopDB

open ReadCommitted (Table)

/-- The phases from which a failed call makes `BeginOrReplay` return the
    database's error. -/
def Phase.inStore : Phase → Bool
  | .begin | .insert _ | .commitInsert | .select | .commitRead _ _ | .delete | .commitDelete => true
  | _ => false

/-- The phases in which a request has written to the table and not committed
    yet. -/
def Phase.writing : Phase → Bool
  | .commitInsert | .commitDelete => true
  | _ => false

section

variable (x : Externals) (q : Request) (limit : Int) (r : ReqId)

/-- The transitions of one request, from the table `T` and the local state
    `l`. -/
inductive Moved (T : KeyTable) (l : Local) : Act → KeyTable → Local → Prop
  | entered (hphase : l.phase = .arrive) : Moved T l .enter T (l.enter x q)
  | rejected (hphase : l.phase = .arrive) : Moved T l .reject T (l.to .returned)
  | began (now : Time) (hphase : l.phase = .begin) :
      Moved T l (.call (.ok now)) T (l.to (.insert now))
  | inserted (k : Slot) (start now : Time) (hslot : q.slot x = some k)
      (hphase : l.phase = .insert start) (hfree : T.free r k = true)
      (hnone : T.visible r k = none) :
      Moved T l (.call (.ok now)) (T.write r k (some (q.row r start))) (l.to .commitInsert)
  | conflicted (k : Slot) (start now : Time) (old : Row) (hslot : q.slot x = some k)
      (hphase : l.phase = .insert start) (hold : T.visible r k = some old) :
      Moved T l (.call (.ok now)) T (l.to .select)
  | insertCommitted (now : Time) (hphase : l.phase = .commitInsert)
      (hlive : l.cancelled = false) :
      Moved T l (.call (.ok now)) (T.commit r) (l.answer (.ok proceed))
  | commitLost (e : String) (hphase : l.phase = .commitInsert ∨ l.phase = .commitDelete) :
      Moved T l (.call (.lost e)) (T.commit r) (l.answer (.error (.database e)))
  | missed (k : Slot) (now : Time) (hslot : q.slot x = some k) (hphase : l.phase = .select)
      (hnone : T.visible r k = none) :
      Moved T l (.call (.ok now)) (T.rollback r) (l.answer (.error .noRows))
  | selected (k : Slot) (now : Time) (row : Row) (hslot : q.slot x = some k)
      (hphase : l.phase = .select) (hrow : T.visible r k = some row) :
      Moved T l (.call (.ok now)) T (l.judged (judge x row q.requestHash now))
  | answered (reply : Reply) (T' : KeyTable) (ignoreError : Bool) (a : Answer)
      (hphase : l.phase = .commitRead ignoreError a) (hT : T' = T.commit r ∨ T' = T.rollback r) :
      Moved T l (.call reply) T' (l.answer a)
  | deleted (k : Slot) (now : Time) (T' : KeyTable) (hslot : q.slot x = some k)
      (hphase : l.phase = .delete) (hT : T.delete r k = some T') :
      Moved T l (.call (.ok now)) T' (l.to .commitDelete)
  | deleteCommitted (now : Time) (hphase : l.phase = .commitDelete) :
      Moved T l (.call (.ok now)) (T.commit r) (l.to .begin)
  | failed (e : String) (hphase : l.phase.inStore = true) :
      Moved T l (.call (.fail e)) (T.rollback r) (l.answer (.error (.database e)))
  | executed (o : Outcome) (hphase : l.phase = .execute) :
      Moved T l (.execute o) T (l.executed q (o.completion limit))
  | completed (reply : Reply) (k : Slot) (c : Completion) (T' : KeyTable)
      (hslot : q.slot x = some k) (hphase : l.phase = .complete c)
      (hT : T.updateNow k (fun row => some (CoopDB.completed x c row)) = some T') :
      Moved T l (.call reply) T' (l.to .returned)
  | completeFailed (e : String) (c : Completion) (hphase : l.phase = .complete c) :
      Moved T l (.call (.fail e)) T (l.to .returned)
  | panicked (hphase : l.phase.over = false) : Moved T l .panic (T.rollback r) (l.to .returned)
  | cancelled : Moved T l .cancel T { l with cancelled := true }
  | crashed (hphase : l.phase.over = false) : Moved T l .crash (T.rollback r) (l.to .crashed)

variable {x q limit r} {T T' : KeyTable} {k : Slot} {l l' : Local} {a : Act}

/-- A successful call of the store is one of the transitions. -/
theorem storeCall_ok_moved {now : Time} (hslot : q.slot x = some k)
    (hlive : l.cancelled = false) (h : storeCall x q k r T l (.ok now) = some (T', l')) :
    Moved x q limit r T l (.call (.ok now)) T' l' := by
  -- A call that waits for a lock gives no state, so it is no transition.
  simp only [storeCall] at h
  split at h
  case h_1 hphase =>
    cases h
    exact .began now hphase
  case h_2 start hphase =>
    cases hins : T.insertOnConflictDoNothing r k (q.row r start) with
    | none => rw [hins] at h; cases h
    | some p =>
      rcases p with ⟨T'', b⟩
      rw [hins] at h
      rcases Table.insertOnConflictDoNothing_cases T T'' hins with
        ⟨hfree, ⟨rfl, rfl, old, hold⟩ | ⟨rfl, rfl, hnone⟩⟩
      · cases h
        exact .conflicted k start now old hslot hphase hold
      · cases h
        exact .inserted k start now hslot hphase hfree hnone
  case h_3 hphase =>
    cases h
    exact .insertCommitted now hphase hlive
  case h_4 hphase =>
    cases hv : T.visible r k with
    | none =>
      rw [hv] at h
      cases h
      exact .missed k now hslot hphase hv
    | some row =>
      rw [hv] at h
      cases h
      exact .selected k now row hslot hphase hv
  case h_5 ignoreError a hphase =>
    cases h
    exact .answered _ _ ignoreError a hphase (.inl rfl)
  case h_6 hphase =>
    simp only [Option.map_eq_some_iff, Prod.mk.injEq] at h
    rcases h with ⟨T'', hT, rfl, rfl⟩
    exact .deleted k now _ hslot hphase hT
  case h_7 hphase =>
    cases h
    exact .deleteCommitted now hphase
  case h_8 c hphase =>
    simp only [Option.map_eq_some_iff, Prod.mk.injEq] at h
    rcases h with ⟨T'', hT, rfl, rfl⟩
    exact .completed _ k c _ hslot hphase hT
  case h_9 => cases h

/-- A failed call of the store is one of the transitions. -/
theorem storeCall_fail_moved {e : String}
    (h : storeCall x q k r T l (.fail e) = some (T', l')) :
    Moved x q limit r T l (.call (.fail e)) T' l' := by
  simp only [storeCall] at h
  -- Seven phases end the same way: the transaction is rolled back and the
  -- error returned. The deferred commit and `Complete` drop the error instead.
  have hfailed : l.phase.inStore = true →
      some (T.rollback r, l.answer (.error (.database e))) = some (T', l') →
      Moved x q limit r T l (.call (.fail e)) T' l' := by
    intro hphase heq
    cases heq
    exact .failed e hphase
  split at h
  case h_8 a hphase =>
    cases h
    exact .answered _ _ true a hphase (.inr rfl)
  case h_9 c hphase =>
    cases h
    exact .completeFailed e c hphase
  case h_10 => cases h
  all_goals
    rename_i hphase
    exact hfailed (by rw [hphase]; rfl) h

/-- A call that took effect and failed is one of the transitions. -/
theorem storeCall_lost_moved {e : String} (hslot : q.slot x = some k)
    (h : storeCall x q k r T l (.lost e) = some (T', l')) :
    Moved x q limit r T l (.call (.lost e)) T' l' := by
  simp only [storeCall] at h
  split at h
  case h_1 hphase =>
    cases h
    exact .commitLost e (.inl hphase)
  case h_2 hphase =>
    cases h
    exact .commitLost e (.inr hphase)
  case h_3 c hphase =>
    simp only [Option.map_eq_some_iff, Prod.mk.injEq] at h
    rcases h with ⟨T'', hT, rfl, rfl⟩
    exact .completed _ k c _ hslot hphase hT
  case h_4 => cases h

/-- `Moved` is everything `move` does. -/
theorem move_moved (h : move x q limit r T l a = some (T', l')) :
    Moved x q limit r T l a T' l' := by
  cases a with
  | enter =>
    simp only [move, Option.ite_none_right_eq_some, Option.some.injEq, Prod.mk.injEq] at h
    rcases h with ⟨hphase, rfl, rfl⟩
    exact .entered hphase
  | reject =>
    simp only [move, Option.ite_none_right_eq_some, Option.some.injEq, Prod.mk.injEq] at h
    rcases h with ⟨hphase, rfl, rfl⟩
    exact .rejected hphase
  | call reply =>
    simp only [move] at h
    cases hslot : q.slot x with
    | none => rw [hslot] at h; cases h
    | some k =>
      rw [hslot] at h
      simp only [Option.ite_none_right_eq_some] at h
      rcases h with ⟨hpossible, h⟩
      -- A cancelled context lets no call succeed.
      cases reply with
      | ok now =>
        simp only [Reply.possible, Bool.not_eq_true'] at hpossible
        exact storeCall_ok_moved hslot hpossible h
      | fail e => exact storeCall_fail_moved h
      | lost e => exact storeCall_lost_moved hslot h
  | execute o =>
    simp only [move, Option.ite_none_right_eq_some, Option.some.injEq, Prod.mk.injEq] at h
    rcases h with ⟨hphase, rfl, rfl⟩
    exact .executed o hphase.1
  | panic =>
    simp only [move, Option.ite_none_left_eq_some, Option.some.injEq, Prod.mk.injEq,
      Bool.not_eq_true] at h
    rcases h with ⟨hphase, rfl, rfl⟩
    exact .panicked hphase
  | cancel =>
    simp only [move, Option.some.injEq, Prod.mk.injEq] at h
    rcases h with ⟨rfl, rfl⟩
    exact .cancelled
  | crash =>
    simp only [move, Option.ite_none_left_eq_some, Option.some.injEq, Prod.mk.injEq,
      Bool.not_eq_true] at h
    rcases h with ⟨hphase, rfl, rfl⟩
    exact .crashed hphase

/-- Once the store has answered, the handler executes or is over. -/
theorem Local.answer_phase (l : Local) (a : Answer) :
    (l.answer a).phase = .returned ∨ (l.answer a).phase = .execute := by
  cases a with
  | error => exact .inl rfl
  | ok ir =>
    simp only [Local.answer]
    cases ir.replay with
    | true => exact .inl rfl
    | false => exact .inr rfl

theorem Local.answer_phase_ne (l : Local) (a : Answer) : (l.answer a).phase ≠ .commitInsert := by
  rcases l.answer_phase a with h | h <;> simp only [h, ne_eq, reduceCtorEq, not_false_eq_true]

theorem Local.judged_phase_ne (l : Local) (v : Verdict) : (l.judged v).phase ≠ .commitInsert := by
  cases v <;> exact fun h => by simp only [Local.judged, Local.to, reduceCtorEq] at h

variable (x q r) in
/-- The uncommitted writes of request `r`: it holds one only when it is about
    to commit it, on its own slot, and before the commit of an insert it does
    hold its row. -/
structure Held (T : KeyTable) (l : Local) : Prop where
  write : ∀ k v, T.pending k = some (r, v) → q.slot x = some k ∧
    ((l.phase = .commitInsert ∧ ∃ start, v = some (q.row r start)) ∨
      (l.phase = .commitDelete ∧ v = none))
  insert : ∀ k, q.slot x = some k → l.phase = .commitInsert →
    ∃ start, T.pending k = some (r, some (q.row r start))

/-- A request that is not about to commit a write holds none. -/
theorem Held.none_pending (h : Held x q r T l) (hidle : l.phase.writing = false) (k : Slot)
    (v : Option Row) : T.pending k ≠ some (r, v) := by
  intro hp
  have hwriting : l.phase.writing = true := by
    rcases (h.write k v hp).2 with ⟨hphase, _⟩ | ⟨hphase, _⟩
    · rw [hphase]
      rfl
    · rw [hphase]
      rfl
  exact Bool.false_ne_true (hidle.symm.trans hwriting)

/-- Without a write of its own a request sees the committed rows. -/
theorem Held.visible_eq_committed (h : Held x q r T l) (hidle : l.phase.writing = false)
    (k : Slot) :
    T.visible r k = T.committed k :=
  Table.visible_of_not_owner T r k (h.none_pending hidle k)

/-- Nothing is held where there is no uncommitted write of the request and no
    insert to commit. -/
theorem held_of_none (hnone : ∀ k v, T.pending k ≠ some (r, v)) (hphase : l.phase ≠ .commitInsert) :
    Held x q r T l :=
  ⟨fun k v hp => absurd hp (hnone k v), fun _ _ hp => absurd hp hphase⟩

theorem none_pending_commit (k : Slot) (v : Option Row) : (T.commit r).pending k ≠ some (r, v) :=
  fun h => ((Table.pending_commit_eq_some T r r k v).mp h).2 rfl

theorem none_pending_rollback (k : Slot) (v : Option Row) :
    (T.rollback r).pending k ≠ some (r, v) :=
  fun h => ((Table.pending_rollback_eq_some T r r k v).mp h).2 rfl

/-- A request's own step keeps its locks in order. -/
theorem held_moved (h : Held x q r T l) (hm : Moved x q limit r T l a T' l') :
    Held x q r T' l' := by
  -- A step that leaves the table alone and starts from a phase without a write.
  have hcarry : ∀ p : Local, l.phase.writing = false → p.phase ≠ .commitInsert →
      Held x q r T p :=
    fun p hidle hp => held_of_none (h.none_pending hidle) hp
  cases hm with
  | entered hphase =>
    refine hcarry _ (by rw [hphase]; rfl) ?_
    unfold Local.enter
    split
    · simp [Local.to]
    · split
      · exact Local.answer_phase_ne l _
      · simp [Local.to]
  | rejected hphase | began now hphase => exact hcarry _ (by rw [hphase]; rfl) (by simp [Local.to])
  | inserted k start now hslot hphase =>
    -- The only write it holds is the one it has just made.
    refine ⟨fun k' v hp => ?_, fun k' hslot' _ => ⟨start, ?_⟩⟩
    · by_cases hk : k' = k
      · subst hk
        rw [Table.pending_write_self, Option.some.injEq, Prod.mk.injEq] at hp
        exact ⟨hslot, .inl ⟨rfl, start, hp.2.symm⟩⟩
      · rw [Table.pending_write_of_ne T r _ hk] at hp
        exact absurd hp (h.none_pending (by rw [hphase]; rfl) k' v)
    · rw [hslot, Option.some.injEq] at hslot'
      rw [← hslot', Table.pending_write_self]
  | conflicted k start now old hslot hphase =>
    exact hcarry _ (by rw [hphase]; rfl) (by simp [Local.to])
  | insertCommitted =>
    exact held_of_none none_pending_commit (Local.answer_phase_ne l _)
  | commitLost => exact held_of_none none_pending_commit (Local.answer_phase_ne l _)
  | missed => exact held_of_none none_pending_rollback (Local.answer_phase_ne l _)
  | selected k now row hslot hphase =>
    exact hcarry _ (by rw [hphase]; rfl) (Local.judged_phase_ne l _)
  | answered reply T' ignoreError a hphase hT =>
    rcases hT with rfl | rfl
    · exact held_of_none none_pending_commit (Local.answer_phase_ne l _)
    · exact held_of_none none_pending_rollback (Local.answer_phase_ne l _)
  | deleted k now T' hslot hphase hT =>
    have hnone := h.none_pending (by rw [hphase]; rfl)
    refine ⟨fun k' v hp => ?_, fun _ _ hp => absurd hp (by simp [Local.to])⟩
    -- Another request may have deleted the row first; then nothing is written.
    rcases Table.delete_cases T T' hT with ⟨rfl, _⟩ | ⟨rfl, _⟩
    · exact absurd hp (hnone k' v)
    · by_cases hk : k' = k
      · subst hk
        rw [Table.pending_write_self, Option.some.injEq, Prod.mk.injEq] at hp
        exact ⟨hslot, .inr ⟨rfl, hp.2.symm⟩⟩
      · rw [Table.pending_write_of_ne T r _ hk] at hp
        exact absurd hp (hnone k' v)
  | deleteCommitted => exact held_of_none none_pending_commit (by simp [Local.to])
  | failed => exact held_of_none none_pending_rollback (Local.answer_phase_ne l _)
  | executed o hphase =>
    refine hcarry _ (by rw [hphase]; rfl) ?_
    unfold Local.executed
    split <;> simp [Local.to]
  | completed reply k c T' hslot hphase hT =>
    -- `Complete` is a statement of its own, committed at once.
    refine held_of_none (fun k' v => ?_) (by simp [Local.to])
    have hnone := h.none_pending (by rw [hphase]; rfl) k' v
    rcases Table.updateNow_cases T T' hT with ⟨rfl, _⟩ | ⟨_, _, _, _, _, rfl⟩
    · exact hnone
    · exact hnone
  | completeFailed e c hphase => exact hcarry _ (by rw [hphase]; rfl) (by simp [Local.to])
  | panicked => exact held_of_none none_pending_rollback (by simp [Local.to])
  | cancelled => exact ⟨h.write, h.insert⟩
  | crashed => exact held_of_none none_pending_rollback (by simp [Local.to])

/-- A request's step leaves the locks of the others alone. -/
theorem pending_moved_of_ne (hm : Moved x q limit r T l a T' l') {r' : ReqId} (hne : r' ≠ r)
    (k : Slot) (v : Option Row) : T'.pending k = some (r', v) ↔ T.pending k = some (r', v) := by
  -- A write waits until the slot is free, so it replaces no lock of another.
  have hwrite : ∀ k' w, T.free r k' = true →
      ((T.write r k' w).pending k = some (r', v) ↔ T.pending k = some (r', v)) := by
    intro k' w hfree
    by_cases hk : k = k'
    · subst hk
      rw [Table.pending_write_self, Option.some.injEq, Prod.mk.injEq]
      constructor
      · intro h
        exact absurd h.1.symm hne
      · intro h
        exact absurd ((Table.free_iff T r k).mp hfree r' v h) hne
    · rw [Table.pending_write_of_ne T r w hk]
  have hcommit : (T.commit r).pending k = some (r', v) ↔ T.pending k = some (r', v) := by
    rw [Table.pending_commit_eq_some]
    exact and_iff_left hne
  have hrollback : (T.rollback r).pending k = some (r', v) ↔ T.pending k = some (r', v) := by
    rw [Table.pending_rollback_eq_some]
    exact and_iff_left hne
  cases hm with
  | inserted k' start now hslot hphase hfree => exact hwrite k' _ hfree
  | insertCommitted | commitLost => exact hcommit
  | missed => exact hrollback
  | answered reply T' ignoreError a hphase hT =>
    rcases hT with rfl | rfl
    · exact hcommit
    · exact hrollback
  | deleted k' now T' hslot hphase hT =>
    rcases Table.delete_cases T T' hT with ⟨rfl, _⟩ | ⟨rfl, hfree, _⟩
    · exact Iff.rfl
    · exact hwrite k' none hfree
  | deleteCommitted => exact hcommit
  | failed => exact hrollback
  | completed reply k' c T' hslot hphase hT =>
    rcases Table.updateNow_cases T T' hT with ⟨rfl, _⟩ | ⟨_, _, _, _, _, rfl⟩
    · exact Iff.rfl
    · exact Iff.rfl
  | panicked | crashed => exact hrollback
  | _ => exact Iff.rfl

/-- A commit publishes the request's own write, if it holds one on the slot. -/
theorem Held.committed_commit (h : Held x q r T l) (k : Slot) :
    (T.commit r).committed k = T.committed k ∨
      (∃ start, q.slot x = some k ∧ l.phase = .commitInsert ∧
        T.pending k = some (r, some (q.row r start)) ∧
        (T.commit r).committed k = some (q.row r start)) ∨
      (q.slot x = some k ∧ l.phase = .commitDelete ∧ T.pending k = some (r, none) ∧
        (T.commit r).committed k = none) := by
  by_cases hown : ∃ v, T.pending k = some (r, v)
  · rcases hown with ⟨v, hv⟩
    have hnew := Table.committed_commit_of_owner T r k hv
    rcases h.write k v hv with ⟨hslot, ⟨hphase, start, rfl⟩ | ⟨hphase, rfl⟩⟩
    · exact .inr (.inl ⟨start, hslot, hphase, hv, hnew⟩)
    · exact .inr (.inr ⟨hslot, hphase, hv, hnew⟩)
  · exact .inl (Table.committed_commit_of_not_owner T r k (fun v hv => hown ⟨v, hv⟩))

/-- What a request's step does to the committed rows: nothing, except for the
    two commits of a write and for `Complete`. After the commit of its insert
    the request is told to execute, unless the commit's answer is lost. -/
theorem committed_moved (h : Held x q r T l) (hm : Moved x q limit r T l a T' l') (k : Slot) :
    T'.committed k = T.committed k ∨
      (∃ start, q.slot x = some k ∧ T.pending k = some (r, some (q.row r start)) ∧
        T'.committed k = some (q.row r start) ∧
        ((l' = l.answer (.ok proceed) ∧ l.cancelled = false) ∨ ∃ e, a = .call (.lost e))) ∨
      (T.pending k = some (r, none) ∧ T'.committed k = none) ∨
      (∃ c old, q.slot x = some k ∧ l.phase = .complete c ∧ T.pending k = none ∧
        T.committed k = some old ∧ T'.committed k = some (completed x c old)) := by
  -- The table changes at a commit, or at once in `Complete`, which has no transaction.
  have hcommit := h.committed_commit k
  cases hm with
  | insertCommitted now hphase hlive =>
    rcases hcommit with hsame | ⟨start, hslot, _, hp, hnew⟩ | ⟨_, _, hp, hnew⟩
    · exact .inl hsame
    · exact .inr (.inl ⟨start, hslot, hp, hnew, .inl ⟨rfl, hlive⟩⟩)
    · exact .inr (.inr (.inl ⟨hp, hnew⟩))
  | commitLost e =>
    rcases hcommit with hsame | ⟨start, hslot, _, hp, hnew⟩ | ⟨_, _, hp, hnew⟩
    · exact .inl hsame
    · exact .inr (.inl ⟨start, hslot, hp, hnew, .inr ⟨e, rfl⟩⟩)
    · exact .inr (.inr (.inl ⟨hp, hnew⟩))
  | answered reply T' ignoreError a hphase hT =>
    rcases hT with rfl | rfl
    · exact .inl (Table.committed_commit_of_not_owner T r k
        (h.none_pending (by rw [hphase]; rfl) k))
    · exact .inl rfl
  | deleted k' now T' hslot hphase hT =>
    rcases Table.delete_cases T T' hT with ⟨rfl, _⟩ | ⟨rfl, _⟩
    · exact .inl rfl
    · exact .inl rfl
  | deleteCommitted now hphase =>
    rcases hcommit with hsame | ⟨_, _, hphase', _⟩ | ⟨_, _, hp, hnew⟩
    · exact .inl hsame
    · exact nomatch (hphase.symm.trans hphase')
    · exact .inr (.inr (.inl ⟨hp, hnew⟩))
  | completed reply k' c T' hslot hphase hT =>
    rcases Table.updateNow_cases T T' hT with ⟨rfl, _⟩ | ⟨old, row, hold, hrow, hfree, rfl⟩
    · exact .inl rfl
    · by_cases hk : k = k'
      · subst hk
        rw [Option.some.injEq] at hrow
        refine .inr (.inr (.inr ⟨c, old, hslot, hphase, hfree, hold, ?_⟩))
        rw [hrow]
        exact Function.update_self _ _ _
      · exact .inl (Function.update_of_ne hk _ _)
  | _ => exact .inl rfl

/-- While another request holds the slot, the committed row stays. -/
theorem committed_moved_of_locked (h : Held x q r T l) (hm : Moved x q limit r T l a T' l')
    {k : Slot} {r' : ReqId} {v : Option Row} (hne : r' ≠ r) (hp : T.pending k = some (r', v)) :
    T'.committed k = T.committed k := by
  rcases committed_moved h hm k with
    hsame | ⟨_, _, hp', _⟩ | ⟨hp', _⟩ | ⟨_, _, _, _, hp', _⟩
  · exact hsame
  · rw [hp, Option.some.injEq, Prod.mk.injEq] at hp'
    exact absurd hp'.1 hne
  · rw [hp, Option.some.injEq, Prod.mk.injEq] at hp'
    exact absurd hp'.1 hne
  · rw [hp] at hp'
    cases hp'

/-- Where a write held after a request's own step comes from. -/
theorem pending_moved_self (h : Held x q r T l) (hm : Moved x q limit r T l a T' l') (k : Slot)
    (v : Option Row) (hp : T'.pending k = some (r, v)) : (T.pending k = some (r, v) ∧ T' = T) ∨
      (T'.committed = T.committed ∧
        ((∃ start, q.slot x = some k ∧ l.phase = .insert start ∧ v = some (q.row r start) ∧
            T.committed k = none) ∨
          (q.slot x = some k ∧ l.phase = .delete ∧ v = none ∧ (∃ old, T.committed k = some old) ∧
            ∃ now, a = .call (.ok now)))) := by
  -- Only an insert and a delete lock a row, in the slot of the request.
  cases hm with
  | inserted k' start now hslot hphase hfree hnone =>
    have hsee := h.visible_eq_committed (by rw [hphase]; rfl)
    by_cases hk : k = k'
    · subst hk
      rw [Table.pending_write_self, Option.some.injEq, Prod.mk.injEq] at hp
      exact .inr ⟨rfl, .inl ⟨start, hslot, hphase, hp.2.symm, hsee k ▸ hnone⟩⟩
    · rw [Table.pending_write_of_ne T r _ hk] at hp
      exact absurd hp (h.none_pending (by rw [hphase]; rfl) k v)
  | insertCommitted | commitLost => exact absurd hp (none_pending_commit k v)
  | missed => exact absurd hp (none_pending_rollback k v)
  | answered reply T' ignoreError a hphase hT =>
    rcases hT with rfl | rfl
    · exact absurd hp (none_pending_commit k v)
    · exact absurd hp (none_pending_rollback k v)
  | deleted k' now T' hslot hphase hT =>
    have hsee := h.visible_eq_committed (by rw [hphase]; rfl)
    rcases Table.delete_cases T T' hT with ⟨rfl, _⟩ | ⟨rfl, _, old, hold⟩
    · exact .inl ⟨hp, rfl⟩
    · by_cases hk : k = k'
      · subst hk
        rw [Table.pending_write_self, Option.some.injEq, Prod.mk.injEq] at hp
        exact .inr ⟨rfl, .inr ⟨hslot, hphase, hp.2.symm, ⟨old, hsee k ▸ hold⟩, now, rfl⟩⟩
      · rw [Table.pending_write_of_ne T r _ hk] at hp
        exact absurd hp (h.none_pending (by rw [hphase]; rfl) k v)
  | deleteCommitted => exact absurd hp (none_pending_commit k v)
  | failed => exact absurd hp (none_pending_rollback k v)
  | completed reply k' c T' hslot hphase hT =>
    rcases Table.updateNow_cases T T' hT with ⟨rfl, _⟩ | ⟨_, _, _, _, _, rfl⟩
    · exact .inl ⟨hp, rfl⟩
    · exact absurd hp (h.none_pending (by rw [hphase]; rfl) k v)
  | panicked | crashed => exact absurd hp (none_pending_rollback k v)
  | _ => exact .inl ⟨hp, rfl⟩

variable (x q) in
/-- How a request comes to one of the phases of `BeginOrReplay`, if it was not
    there before. -/
def CameFrom (T : KeyTable) (l : Local) (a : Act) : Phase → Prop
  | .insert start => l.phase = .insert start ∨ (l.phase = .begin ∧ a = .call (.ok start))
  | .select => l.phase = .select ∨ ∃ k old, q.slot x = some k ∧ T.committed k = some old
  | .commitRead ignoreError b => l.phase = .commitRead ignoreError b ∨
      ∃ k now row, q.slot x = some k ∧ l.phase = .select ∧ a = .call (.ok now) ∧
        T.committed k = some row ∧ ((∃ e, judge x row q.requestHash now = .refuse e ∧
          b = .error e) ∨
          judge x row q.requestHash now = .serve b)
  | .delete => l.phase = .delete ∨
      ∃ k now row, q.slot x = some k ∧ l.phase = .select ∧ a = .call (.ok now) ∧
        T.committed k = some row ∧ row.expiresAt < now
  | .commitDelete => l.phase = .commitDelete ∨ l.phase = .delete
  | _ => True

/-- A row is reclaimed only when its expiry has passed. -/
theorem judge_reclaim {row : Row} {requestHash : String} {now : Time}
    (h : judge x row requestHash now = .reclaim) : row.expiresAt < now := by
  by_cases hexp : row.expiresAt < now
  · exact hexp
  · simp only [judge, if_neg hexp] at h
    split at h
    · cases h
    · split at h
      · cases h
      · cases h

/-- Every step leads to a phase the way `CameFrom` says. -/
theorem phase_moved (h : Held x q r T l) (hm : Moved x q limit r T l a T' l') :
    CameFrom x q T l a l'.phase := by
  have hanswer : ∀ b, CameFrom x q T l a (l.answer b).phase := by
    intro b
    rcases l.answer_phase b with hb | hb <;> (rw [hb]; trivial)
  cases hm with
  | entered =>
    unfold Local.enter
    split
    · trivial
    · split
      · exact hanswer _
      · trivial
  | began now hphase => exact .inr ⟨hphase, rfl⟩
  | conflicted k start now old hslot hphase hold =>
    rw [h.visible_eq_committed (by rw [hphase]; rfl)] at hold
    exact .inr ⟨k, old, hslot, hold⟩
  | insertCommitted | commitLost | missed => exact hanswer _
  | selected k now row hslot hphase hrow =>
    rw [h.visible_eq_committed (by rw [hphase]; rfl)] at hrow
    cases hv : judge x row q.requestHash now with
    | reclaim => exact .inr ⟨k, now, row, hslot, hphase, rfl, hrow, judge_reclaim hv⟩
    | refuse e => exact .inr ⟨k, now, row, hslot, hphase, rfl, hrow, .inl ⟨e, hv, rfl⟩⟩
    | serve => exact .inr ⟨k, now, row, hslot, hphase, rfl, hrow, .inr hv⟩
  | answered => exact hanswer _
  | deleted k now T' hslot hphase => exact .inr hphase
  | failed => exact hanswer _
  | executed =>
    unfold Local.executed
    split <;> trivial
  | cancelled => cases hp : l.phase <;> simp only [CameFrom, hp, true_or]
  | _ => trivial

/-- What a request with a slot was told, and what it passed on, phase by
    phase. -/
def Coherent (l : Local) : Prop :=
  match l.phase with
  | .execute => l.Fresh ∧ l.completion = none
  | .complete c => l.Fresh ∧ l.completion = some c
  | .returned | .crashed => ∀ c, l.completion = some c → l.Fresh
  | .commitRead _ a => (l.begun = none ∧ l.completion = none) ∧
      ∀ ir, a = .ok ir → ir.replay = true
  | _ => l.begun = none ∧ l.completion = none

/-- A stored response is only ever replayed. -/
theorem judge_serve (row : Row) {requestHash : String} (now : Time) (a : Answer)
    (h : judge x row requestHash now = .serve a) (ir : IdempotencyResult) (ha : a = .ok ir) :
    ir.replay = true := by
  simp only [judge] at h
  split at h
  · cases h
  · split at h
    · cases h
    · split at h
      · cases h
      · subst ha
        cases hg : gunzip x row.responseBody with
        | error => rw [hg] at h; exact absurd h (by simp)
        | ok =>
          rw [hg] at h
          simp only [Verdict.serve.injEq, Except.ok.injEq] at h
          rw [← h]

/-- An error, or a replay, ends the handler. -/
theorem coherent_answer {a : Answer} (hcomp : l.completion = none)
    (ha : ∀ ir, a = .ok ir → ir.replay = true) : Coherent (l.answer a) := by
  cases a with
  | error => exact fun c hc => nomatch (hcomp ▸ hc)
  | ok ir =>
    simp only [Coherent, Local.answer, ha ir rfl, if_true]
    exact fun c hc => nomatch (hcomp ▸ hc)

/-- Only a request that was told to execute has anything to complete. -/
theorem Coherent.fresh_of_completion (h : Coherent l) (c : Completion)
    (hc : l.completion = some c) :
    l.Fresh := by
  cases hphase : l.phase <;> simp only [Coherent, hphase] at h
  case execute => exact h.1
  case complete => exact h.1
  case returned => exact h c hc
  case crashed => exact h c hc
  case commitRead => exact absurd (h.1.2 ▸ hc) (by simp)
  all_goals exact absurd (h.2 ▸ hc) (by simp)

/-- Before the store has answered, nothing was told and nothing passed on. -/
theorem Coherent.early (h : Coherent l) (hp : l.phase.inStore = true ∨ l.phase = .arrive) :
    l.begun = none ∧ l.completion = none := by
  cases hphase : l.phase <;> simp only [Coherent, hphase] at h <;>
    simp only [hphase, Phase.inStore, Bool.false_eq_true, reduceCtorEq, or_self] at hp <;>
    first | exact h | exact h.1

/-- A request with a slot has a key. -/
theorem idempotencyKey_ne_empty (hslot : q.slot x = some k) : q.idempotencyKey ≠ "" := by
  intro hempty
  simp only [Request.slot, if_pos hempty, reduceCtorEq] at hslot

/-- A request's own step keeps it coherent. -/
theorem coherent_moved (hslot : q.slot x = some k) (h : Coherent l)
    (hm : Moved x q limit r T l a T' l') : Coherent l' := by
  have hkey := idempotencyKey_ne_empty hslot
  have hearly := h.early
  -- A handler that is cut off keeps what it has.
  have hover : ∀ p : Phase, p.over = true → l.phase.over = false → Coherent (l.to p) := by
    intro p hp hnot
    have hpassed : ∀ c, l.completion = some c → l.Fresh := h.fresh_of_completion
    cases p <;> first | exact hpassed | exact absurd hp Bool.false_ne_true
  cases hm with
  | entered hphase =>
    have hnone := hearly (.inr hphase)
    unfold Local.enter
    rw [if_neg hkey]
    cases x.uuidParse q.workspaceID with
    | error => exact coherent_answer hnone.2 (fun ir hir => absurd hir (by simp))
    | ok => exact hnone
  | rejected hphase => exact hover _ rfl (by rw [hphase]; rfl)
  | began now hphase | inserted k' start now hslot' hphase
  | conflicted k' start now old hslot' hphase => exact hearly (.inl (by rw [hphase]; rfl))
  | insertCommitted now hphase => exact ⟨rfl, (hearly (.inl (by rw [hphase]; rfl))).2⟩
  | commitLost e hphase =>
    refine coherent_answer (hearly (.inl ?_)).2 (fun ir hir => absurd hir (by simp))
    rcases hphase with hphase | hphase <;> (rw [hphase]; rfl)
  | missed k' now hslot' hphase =>
    exact coherent_answer (hearly (.inl (by rw [hphase]; rfl))).2
      (fun ir hir => absurd hir (by simp))
  | selected k' now row hslot' hphase =>
    have hnone := hearly (.inl (by rw [hphase]; rfl))
    cases hv : judge x row q.requestHash now with
    | reclaim => exact hnone
    | refuse => exact ⟨hnone, fun ir hir => absurd hir (by simp)⟩
    | serve a => exact ⟨hnone, judge_serve row now a hv⟩
  | answered reply T' ignoreError a hphase =>
    simp only [Coherent, hphase] at h
    exact coherent_answer h.1.2 h.2
  | deleted k' now T' hslot' hphase | deleteCommitted now hphase =>
    exact hearly (.inl (by rw [hphase]; rfl))
  | failed e hphase =>
    exact coherent_answer (hearly (.inl hphase)).2 (fun ir hir => absurd hir (by simp))
  | executed o hphase =>
    simp only [Coherent, hphase] at h
    unfold Local.executed
    rw [if_neg hkey]
    exact ⟨h.1, rfl⟩
  | completed reply k' c T' hslot' hphase | completeFailed e c hphase =>
    exact hover _ rfl (by rw [hphase]; rfl)
  | panicked hphase => exact hover _ rfl hphase
  | cancelled => exact h
  | crashed hphase => exact hover _ rfl hphase

/-- What `BeginOrReplay` told a request, and what the request passed to
    `Complete`, stay as they are. -/
theorem told_moved (h : Coherent l) (hm : Moved x q limit r T l a T' l') :
    (l.begun ≠ none → l'.begun = l.begun) ∧
      (l.completion ≠ none → l'.completion = l.completion) := by
  -- The store's answer is the only thing told, and there was none before it.
  have hearly : l.phase.inStore = true ∨ l.phase = .arrive →
      (l.begun ≠ none → l'.begun = l.begun) ∧
        (l.completion ≠ none → l'.completion = l.completion) :=
    fun hp => ⟨fun hb => absurd (h.early hp).1 hb, fun hc => absurd (h.early hp).2 hc⟩
  cases hm with
  | entered hphase => exact hearly (.inr hphase)
  | insertCommitted now hphase => exact hearly (.inl (by rw [hphase]; rfl))
  | commitLost e hphase =>
    rcases hphase with hphase | hphase <;> exact hearly (.inl (by rw [hphase]; rfl))
  | missed k' now hslot' hphase | selected k' now row hslot' hphase
  | answered reply T' ignoreError a hphase => exact hearly (.inl (by rw [hphase]; rfl))
  | failed e hphase => exact hearly (.inl hphase)
  | executed o hphase =>
    simp only [Coherent, hphase] at h
    refine ⟨fun _ => ?_, fun hc => absurd h.2 hc⟩
    unfold Local.executed
    split <;> rfl
  | _ => exact ⟨fun _ => rfl, fun _ => rfl⟩

/-- A request is told to execute by the commit of its insert and by nothing
    else. -/
theorem fresh_moved (h : Coherent l) (hm : Moved x q limit r T l a T' l') (hf : l'.Fresh) :
    l.Fresh ∨ (l.phase = .commitInsert ∧ T' = T.commit r) := by
  have hrefused : ∀ e, ¬ (l.answer (.error e)).Fresh := by
    intro e he
    simp [Local.Fresh, Local.answer] at he
  cases hm with
  | entered =>
    refine .inl ?_
    unfold Local.enter at hf
    split at hf
    · exact hf
    · split at hf
      · exact absurd hf (hrefused _)
      · exact hf
  | insertCommitted now hphase => exact .inr ⟨hphase, rfl⟩
  | commitLost | missed => exact absurd hf (hrefused _)
  | selected k now row =>
    refine .inl ?_
    cases hv : judge x row q.requestHash now <;> (rw [hv] at hf; exact hf)
  | answered reply T' ignoreError a hphase =>
    -- What is answered after a read is an error or a replay.
    simp only [Coherent, hphase] at h
    simp only [Local.Fresh, Local.answer, Option.some.injEq] at hf
    exact absurd (h.2 proceed hf) (by decide)
  | failed => exact absurd hf (hrefused _)
  | executed =>
    refine .inl ?_
    unfold Local.executed at hf
    split at hf <;> exact hf
  | _ => exact .inl hf

/-- Where an answer of the store comes from. -/
theorem begun_moved (hslot : q.slot x = some k) (h : Held x q r T l)
    (hm : Moved x q limit r T l a T' l') {b : Answer} (hb : l'.begun = some b) :
    l.begun = some b ∨ b = .ok proceed ∨
      (∃ e, b = .error (.database e) ∧ (a = .call (.fail e) ∨ a = .call (.lost e))) ∨
      (∃ ignoreError, l.phase = .commitRead ignoreError b) ∨
      (b = .error .noRows ∧ l.phase = .select ∧ T.committed k = none ∧
        ∃ now, a = .call (.ok now)) := by
  -- A request with a slot has a workspace id that parses.
  have hparse : ∃ ws, x.uuidParse q.workspaceID = .ok ws := by
    simp only [Request.slot] at hslot
    split at hslot
    · cases hslot
    · cases hws : x.uuidParse q.workspaceID with
      | error => rw [hws] at hslot; exact absurd hslot (by simp)
      | ok ws => exact ⟨ws, rfl⟩
  have hanswer : ∀ a', (l.answer a').begun = some b → b = a' := by
    intro a' hb'
    simp only [Local.answer, Option.some.injEq] at hb'
    exact hb'.symm
  cases hm with
  | entered =>
    rcases hparse with ⟨ws, hws⟩
    unfold Local.enter at hb
    rw [hws] at hb
    split at hb <;> exact .inl hb
  | insertCommitted => exact .inr (.inl (hanswer _ hb))
  | commitLost e => exact .inr (.inr (.inl ⟨e, hanswer _ hb, .inr rfl⟩))
  | missed k' now hslot' hphase hnone =>
    rw [hslot, Option.some.injEq] at hslot'
    subst hslot'
    rw [h.visible_eq_committed (by rw [hphase]; rfl)] at hnone
    exact .inr (.inr (.inr (.inr ⟨hanswer _ hb, hphase, hnone, now, rfl⟩)))
  | selected k' now row =>
    cases hv : judge x row q.requestHash now <;> (rw [hv] at hb; exact .inl hb)
  | answered reply T' ignoreError a' hphase =>
    rw [hanswer _ hb]
    exact .inr (.inr (.inr (.inl ⟨ignoreError, hphase⟩)))
  | failed e => exact .inr (.inr (.inl ⟨e, hanswer _ hb, .inl rfl⟩))
  | executed =>
    unfold Local.executed at hb
    split at hb <;> exact .inl hb
  | _ => exact .inl hb

end

section System

variable (d : Deployment)

/-- The two invariants of every run: each request's locks are in order, and
    each request with a slot is coherent. -/
structure Sound (s : Gateway) : Prop where
  held : ∀ r, Held d.externals (d.requests r) r s.table (s.reqs r)
  coherent : ∀ r k, d.slot r = some k → Coherent (s.reqs r)

theorem sound_initial : Sound d initial := by
  refine ⟨fun r => held_of_none (fun k v h => ?_) ?_, fun r k _ => ⟨rfl, rfl⟩⟩
  · exact absurd h (by simp [initial])
  · simp [initial, Local.initial]

variable {d} {s s' : Gateway} {e : Event}

/-- A step of the system moves one request, or purges. -/
theorem step_cases (h : step d s e = some s') : (∃ r a T' l', e = .request r a ∧
      Moved d.externals (d.requests r) d.maxResponseBodyBytes r s.table (s.reqs r) a T' l' ∧
      s' = { table := T', reqs := Function.update s.reqs r l' }) ∨
    (∃ now, e = .purge now ∧
      s' = { s with table := s.table.deleteWhere (fun row => row.expiresAt < now) }) := by
  cases e with
  | request r a =>
    simp only [step, Option.map_eq_some_iff] at h
    rcases h with ⟨⟨T', l'⟩, hm, rfl⟩
    exact .inl ⟨r, a, T', l', rfl, move_moved hm, rfl⟩
  | purge now =>
    simp only [step, Option.some.injEq] at h
    exact .inr ⟨now, rfl, h.symm⟩

/-- A step leaves a request as it is, unless it is the request that makes it. -/
theorem request_cases (h : step d s e = some s') (r : ReqId) :
    s'.reqs r = s.reqs r ∨ ∃ a T' l', e = .request r a ∧
      Moved d.externals (d.requests r) d.maxResponseBodyBytes r s.table (s.reqs r) a T' l' ∧
      s' = { table := T', reqs := Function.update s.reqs r l' } := by
  rcases step_cases h with ⟨r', a, T', l', rfl, hm, rfl⟩ | ⟨now, rfl, rfl⟩
  · by_cases hr : r = r'
    · subst hr
      exact .inr ⟨a, T', l', rfl, hm, rfl⟩
    · exact .inl (Function.update_of_ne hr _ _)
  · exact .inl rfl

theorem sound_step (h : Sound d s) (hs : step d s e = some s') : Sound d s' := by
  rcases step_cases hs with ⟨r, a, T', l', rfl, hm, rfl⟩ | ⟨now, rfl, rfl⟩
  · refine ⟨fun r' => ?_, fun r' k hslot => ?_⟩
    · by_cases hr : r' = r
      · subst hr
        simp only [Function.update_self]
        exact held_moved (h.held r') hm
      · -- Another request's locks and phase are untouched.
        have hother := pending_moved_of_ne hm hr
        simp only [Function.update_of_ne hr]
        refine ⟨fun k v hp => (h.held r').write k v ((hother k v).mp hp), fun k hslot hphase => ?_⟩
        rcases (h.held r').insert k hslot hphase with ⟨start, hp⟩
        exact ⟨start, (hother k _).mpr hp⟩
    · by_cases hr : r' = r
      · subst hr
        simp only [Function.update_self]
        exact coherent_moved hslot (h.coherent r' k hslot) hm
      · simp only [Function.update_of_ne hr]
        exact h.coherent r' k hslot
  · -- A purge takes only committed rows that nobody has locked.
    exact ⟨fun r => ⟨(h.held r).write, (h.held r).insert⟩, h.coherent⟩

/-- Along a step, what a request was told and what it passed to `Complete`
    stay as they are. -/
theorem told_step (h : Sound d s) (hs : step d s e = some s') {r : ReqId} {k : Slot}
    (hslot : d.slot r = some k) : ((s.reqs r).begun ≠ none → (s'.reqs r).begun = (s.reqs r).begun) ∧
      ((s.reqs r).completion ≠ none → (s'.reqs r).completion = (s.reqs r).completion) := by
  rcases request_cases hs r with hsame | ⟨a, T', l', rfl, hm, rfl⟩
  · rw [hsame]
    exact ⟨fun _ => rfl, fun _ => rfl⟩
  · simp only [Function.update_self]
    exact told_moved (h.coherent r k hslot) hm

/-- A request that is about to return what it read was so before, or reads it
    in this step from the committed row of its slot. -/
theorem reading_cases (h : Sound d s) (hs : step d s e = some s') (r : ReqId) (k : Slot)
    (hslot : d.slot r = some k) (ignoreError : Bool) (b : Answer)
    (hphase : (s'.reqs r).phase = .commitRead ignoreError b) :
    (s.reqs r).phase = .commitRead ignoreError b ∨
      ∃ now row, (s.reqs r).phase = .select ∧ e = .request r (.call (.ok now)) ∧
        s.table.committed k = some row ∧
        ((∃ e, judge d.externals row (d.requests r).requestHash now = .refuse e ∧ b = .error e) ∨
          judge d.externals row (d.requests r).requestHash now = .serve b) := by
  rcases request_cases hs r with hsame | ⟨a, T', l', rfl, hm, rfl⟩
  · exact .inl (hsame ▸ hphase)
  · have hcame := phase_moved (h.held r) hm
    simp only [Function.update_self] at hphase
    rw [hphase] at hcame
    rcases hcame with hold | ⟨k', now, row, hslot', hsel, rfl, hrow, hj⟩
    · exact .inl hold
    · have hk : k = k' := Option.some.inj (hslot.symm.trans hslot')
      subst hk
      exact .inr ⟨now, row, hsel, rfl, hrow, hj⟩

/-- What a request is told it was told before, or it is told in this step: to
    execute, that the database failed, what it read, or that there was no row
    to read. -/
theorem begun_cases (h : Sound d s) (hs : step d s e = some s') (r : ReqId) (k : Slot)
    (hslot : d.slot r = some k) (b : Answer) (hb : (s'.reqs r).begun = some b) :
    (s.reqs r).begun = some b ∨ b = .ok proceed ∨
      (∃ a, e = .request r a ∧
        ∃ e', b = .error (.database e') ∧ (a = .call (.fail e') ∨ a = .call (.lost e'))) ∨
      (∃ ignoreError, (s.reqs r).phase = .commitRead ignoreError b) ∨
      (b = .error .noRows ∧ (s.reqs r).phase = .select ∧ s.table.committed k = none ∧
        ∃ now, e = .request r (.call (.ok now))) := by
  rcases request_cases hs r with hsame | ⟨a, T', l', rfl, hm, rfl⟩
  · exact .inl (hsame ▸ hb)
  · simp only [Function.update_self] at hb
    rcases begun_moved hslot (h.held r) hm hb with
      hold | hproceed | hfail | hread | ⟨hnone, hsel, hrow, now, rfl⟩
    · exact .inl hold
    · exact .inr (.inl hproceed)
    · exact .inr (.inr (.inl ⟨a, rfl, hfail⟩))
    · exact .inr (.inr (.inr (.inl hread)))
    · exact .inr (.inr (.inr (.inr ⟨hnone, hsel, hrow, now, rfl⟩)))

end System

end CoopDB
