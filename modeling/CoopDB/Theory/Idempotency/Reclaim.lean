import CoopDB.Theory.Idempotency.AtMostOnce

/-!
# Reclaiming an Expired Row

A slot holds a row that has expired, and any number of calls of
`BeginOrReplay` find it at once. Each is going to delete it and start over.

The delete names the slot and not the row. A call that has read the expired
row may be late: another call has deleted that row by then and reserved the
slot with a row of its own, and the late delete removes the fresh row. Both
calls then insert and both are told to execute. The purge has a similar effect on a
call that has just conflicted with the expired row: its select finds nothing, and the
driver's error reaches the caller.

## Main definitions

* `Within`: All clocks read instants of one window.
* `OrderlyReclaim`: A reclaiming delete is taken only while the slot still holds an
  expired row or none, and a select only while there is a row to read.
* `Reclaiming`: The invariant of a run.

## Theorems

* `reclaiming_step`: The invariant is kept.
* `reclaim_admits_one_executor`: In an orderly run at most one call is told to execute,
  and every error is one the protocol knows or that of a failed database call.
* `late_delete_two_executors`: Two executors, and a call that finds no row.
-/

namespace CoopDB

open Transition (run Allowed)

/-- The clock reading an event carries, if it carries one. -/
def Event.reading : Event → Option Time
  | .purge now => some now
  | .request _ (.call (.ok now)) => some now
  | _ => none

/-- The event reads no clock outside the window. -/
def Within (t₀ t₁ : Time) (e : Event) : Prop :=
  ∀ now ∈ e.reading, t₀ ≤ now ∧ now ≤ t₁

instance (t₀ t₁ : Time) (e : Event) : Decidable (Within t₀ t₁ e) :=
  inferInstanceAs (Decidable (∀ now ∈ e.reading, t₀ ≤ now ∧ now ≤ t₁))

/-- The rows of a table with no transaction open, before any request. -/
def holding (committed : Slot → Option Row) : Gateway :=
  { table := { committed := committed, pending := fun _ => none }
    reqs := fun _ => Local.initial }

theorem sound_holding (d : Deployment) (committed : Slot → Option Row) :
    Sound d (holding committed) := by
  refine ⟨fun r => held_of_none (fun k v h => ?_) ?_, fun r k _ => ⟨rfl, rfl⟩⟩
  · exact absurd h (by simp [holding])
  · simp [holding, Local.initial]

/-- Before any request, a slot is in order if the row it holds is dead. -/
theorem reserved_holding (d : Deployment) (dead : Time → Prop) (k : Slot)
    (committed : Slot → Option Row)
    (h : ∀ row, committed k = some row → dead row.expiresAt) :
    Reserved d dead k (holding committed) where
  starting r start _ hphase := absurd hphase (by simp [holding, Local.initial])
  inserting r row hp := absurd hp (by simp [holding])
  deleting r hp := absurd hp (by simp [holding])
  owned row hrow hlive := absurd (h row hrow) hlive
  fresh r _ hf := absurd hf (by simp [holding, Local.initial, Local.Fresh])

section

variable (d : Deployment) (k : Slot) (t₀ t₁ : Time)

/-- A reclaiming delete is taken only while the slot holds a row that had
    expired when the run began, or none, and a select only while there is a
    row. -/
def OrderlyReclaim (s : Gateway) : Event → Prop
  | .request r (.call (.ok _)) => d.slot r = some k →
      ((s.reqs r).phase = .delete → ∀ row ∈ s.table.committed k, row.expiresAt < t₀) ∧
      ((s.reqs r).phase = .select → s.table.committed k ≠ none)
  | _ => True

instance (s : Gateway) (e : Event) : Decidable (OrderlyReclaim d k t₀ s e) :=
  match e with
  | .request r (.call (.ok _)) => inferInstanceAs (Decidable (d.slot r = some k →
      ((s.reqs r).phase = .delete → ∀ row ∈ s.table.committed k, row.expiresAt < t₀) ∧
      ((s.reqs r).phase = .select → s.table.committed k ≠ none)))
  | .purge _ | .request _ .enter | .request _ .reject | .request _ (.call (.fail _))
  | .request _ (.call (.lost _)) | .request _ (.execute _) | .request _ .panic
  | .request _ .cancel | .request _ .crash => isTrue trivial

/-- The answers of a call that is neither told to execute nor failed by the
    database. -/
def ProtocolAnswer (a : Answer) : Prop :=
  a = .error .conflict ∨ a = .error .inProgress ∨ ∃ ir, a = .ok ir ∧ ir.replay = true

/-- The invariant of a run that began with an expired row in the slot. A row
    that expires before the end of the run had expired before its beginning. -/
structure Reclaiming (es : List Event) (s : Gateway) : Prop where
  sound : Sound d s
  reserved : Reserved d (· < t₁) k s
  stale : ∀ row, s.table.committed k = some row → row.expiresAt < t₁ → row.expiresAt < t₀
  reading : ∀ r ignoreError a, d.slot r = some k → (s.reqs r).phase = .commitRead ignoreError a →
    ProtocolAnswer a
  told : ∀ r a, d.slot r = some k → (s.reqs r).begun = some a →
    a = .ok proceed ∨ DatabaseFailed es r a ∨ ProtocolAnswer a

/-- What the run has to satisfy, step by step: the clocks stay within the
    window, and the reclaim is orderly. -/
def ReclaimGuard (s : Gateway) (e : Event) : Prop :=
  Within t₀ t₁ e ∧ OrderlyReclaim d k t₀ s e

instance (s : Gateway) (e : Event) : Decidable (ReclaimGuard d k t₀ t₁ s e) :=
  inferInstanceAs (Decidable (_ ∧ _))

variable (httl : ∀ r, d.slot r = some k → t₁ ≤ t₀ + (d.requests r).ttl)
include httl

/-- Within the window, an orderly reclaim destroys no live row. -/
theorem undisturbed_of_orderly (s : Gateway) (e : Event) (hg : ReclaimGuard d k t₀ t₁ s e) :
    Undisturbed d (· < t₁) k s e := by
  rcases hg with ⟨hwin, hord⟩
  match e with
  | .purge now =>
    exact fun row _ hlive => Int.le_trans (hwin now rfl).2 (Int.not_lt.mp hlive)
  | .request r (.call (.ok now)) =>
    have hnow := hwin now rfl
    -- A row inserted at `now` expires a time-to-live later, past the window.
    refine fun hslot => ⟨fun _ => Int.not_lt.mpr ?_, fun hphase row hrow => ?_⟩
    · exact Int.le_trans (httl r hslot) (Int.add_le_add_right hnow.1 _)
    · exact Int.lt_of_lt_of_le ((hord hslot).1 hphase row hrow) (Int.le_trans hnow.1 hnow.2)
  | .request _ .enter | .request _ .reject | .request _ (.call (.fail _))
  | .request _ (.call (.lost _)) | .request _ (.execute _) | .request _ .panic
  | .request _ .cancel | .request _ .crash => exact trivial

omit httl in
/-- No row comes to expire during the run. -/
theorem stale_step (s s' : Gateway) (e : Event) (es : List Event)
    (h : Reclaiming d k t₀ t₁ es s) (hs : step d s e = some s') (row : Row)
    (hrow : s'.table.committed k = some row) (hexp : row.expiresAt < t₁) :
    row.expiresAt < t₀ := by
  rcases step_cases hs with ⟨r, a, T', l', rfl, hm, rfl⟩ | ⟨now, rfl, rfl⟩
  · rcases committed_moved (h.sound.held r) hm k with
      hsame | ⟨start, _, hp, hnew, _⟩ | ⟨_, hnew⟩ | ⟨c, old, _, _, _, hold, hnew⟩
    · exact h.stale row (hsame.symm.trans hrow) hexp
    · -- A row inserted during the run outlives it.
      rw [hnew, Option.some.injEq] at hrow
      subst hrow
      exact absurd hexp (h.reserved.inserting r _ hp).2
    · rw [hnew] at hrow
      cases hrow
    · rw [hnew, Option.some.injEq] at hrow
      subst hrow
      exact h.stale old hold hexp
  · exact h.stale row (committed_of_purge hrow) hexp

omit httl in
/-- A row that is read is live and answered by the protocol, or has expired and
    is reclaimed. -/
theorem protocolAnswer_of_judge {s : Gateway} {es : List Event} (h : Reclaiming d k t₀ t₁ es s)
    {row : Row} (hrow : s.table.committed k = some row) {requestHash : String} {now : Time}
    (hnow : t₀ ≤ now ∧ now ≤ t₁) {a : Answer}
    (hj : (∃ e, judge d.externals row requestHash now = .refuse e ∧ a = .error e) ∨
      judge d.externals row requestHash now = .serve a) : ProtocolAnswer a := by
  by_cases hdead : row.expiresAt < t₁
  · have hexp : row.expiresAt < now := Int.lt_of_lt_of_le (h.stale row hrow hdead) hnow.1
    simp only [judge, if_pos hexp, reduceCtorEq, false_and, exists_false, or_self] at hj
  · have hle : now ≤ row.expiresAt := Int.le_trans hnow.2 (Int.not_lt.mp hdead)
    rcases judge_owned (h.reserved.owned row hrow hdead) requestHash hle with
      ⟨_, hv⟩ | ⟨_, _, hv⟩ | ⟨_, _, c, _, hv⟩
    · simp only [hv, Verdict.refuse.injEq, reduceCtorEq, or_false, exists_eq_left'] at hj
      exact .inl hj
    · simp only [hv, Verdict.refuse.injEq, reduceCtorEq, or_false, exists_eq_left'] at hj
      exact .inr (.inl hj)
    · simp only [hv, Verdict.serve.injEq, reduceCtorEq, false_and, exists_false, false_or] at hj
      exact .inr (.inr ⟨_, hj.symm, rfl⟩)

/-- One step keeps the invariant. -/
theorem reclaiming_step {es : List Event} {s : Gateway} {e : Event} {s' : Gateway}
    (h : Reclaiming d k t₀ t₁ es s) (hg : ReclaimGuard d k t₀ t₁ s e)
    (hs : step d s e = some s') : Reclaiming d k t₀ t₁ (es ++ [e]) s' := by
  have hund := undisturbed_of_orderly d k t₀ t₁ httl s e hg
  have htold : ∀ r a, d.slot r = some k → (s.reqs r).begun = some a →
      a = .ok proceed ∨ DatabaseFailed (es ++ [e]) r a ∨ ProtocolAnswer a := by
    intro r a hslot hb
    rcases h.told r a hslot hb with ha | hfail | hok
    · exact .inl ha
    · exact .inr (.inl (hfail.mono [e] r a))
    · exact .inr (.inr hok)
  refine ⟨sound_step h.sound hs, reserved_step h.sound h.reserved hund hs,
    stale_step d k t₀ t₁ s s' e es h hs, ?_, ?_⟩
  · intro r ignoreError a hslot hphase
    rcases reading_cases h.sound hs r k hslot ignoreError a hphase with
      hold | ⟨now, row, _, rfl, hrow, hj⟩
    · exact h.reading r ignoreError a hslot hold
    · exact protocolAnswer_of_judge d k t₀ t₁ h hrow (hg.1 now rfl) hj
  · intro r a hslot hbegun
    rcases begun_cases h.sound hs r k hslot a hbegun with
      hb | ha | ⟨act, rfl, hfail⟩ | ⟨ignoreError, hphase⟩ | ⟨_, hsel, hnone, now, rfl⟩
    · exact htold r a hslot hb
    · exact .inl ha
    · exact .inr (.inl (databaseFailed_snoc es r _ a hfail))
    · exact .inr (.inr (h.reading r ignoreError a hslot hphase))
    · -- A select is taken only while there is a row.
      exact absurd hnone ((hg.2 hslot).2 hsel)

/-- Where a slot's row has expired, any number of calls of `BeginOrReplay` and
    purges, interleaved in any way, admit one executor at most and answer no
    error of their own other than the conflict and the in-progress error, in
    every run in which the reclaim is orderly. -/
theorem reclaim_admits_one_executor (committed : Slot → Option Row) (old : Row)
    (hold : committed k = some old) (hexp : old.expiresAt < t₀) (hwin : t₀ ≤ t₁)
    (es : List Event) (s : Gateway) (hrun : run (step d) (holding committed) es = some s)
    (hg : Allowed (step d) (ReclaimGuard d k t₀ t₁) (holding committed) es) :
    (∀ r r', d.slot r = some k → d.slot r' = some k → (s.reqs r).Fresh → (s.reqs r').Fresh →
      r = r') ∧
    (∀ r e, d.slot r = some k → (s.reqs r).begun = some (.error e) →
      e = .conflict ∨ e = .inProgress ∨ DatabaseFailed es r (.error e)) := by
  have hinit : Reclaiming d k t₀ t₁ [] (holding committed) := by
    have hstale : ∀ row, committed k = some row → row.expiresAt < t₀ := by
      intro row hrow
      rw [show row = old from Option.some.inj (hrow.symm.trans hold)]
      exact hexp
    refine ⟨sound_holding d committed, reserved_holding d _ k committed (fun row hrow => ?_),
      fun row hrow _ => hstale row hrow, ?_, ?_⟩
    · exact Int.lt_of_lt_of_le (hstale row hrow) hwin
    · intro r _ a _ hphase
      exact absurd hphase (by simp [holding, Local.initial])
    · intro r a _ hb
      exact absurd hb (by simp [holding, Local.initial])
  have h := Transition.run_trace_invariant (Reclaiming d k t₀ t₁) hinit
    (fun es s e s' _ hI hG hs => reclaiming_step d k t₀ t₁ httl hI hG hs) es s hg hrun
  refine ⟨fresh_unique h.reserved, fun r e hslot hb => ?_⟩
  rcases h.told r _ hslot hb with ha | hfail | ha | ha | ⟨ir, ha, _⟩
  · exact absurd ha (by simp)
  · exact .inr (.inr hfail)
  · exact .inl (Except.error.inj ha)
  · exact .inr (.inl (Except.error.inj ha))
  · exact absurd ha (by simp)

end

/-- A table whose one row expired at instant 0. -/
def expiredRow : Slot → Option Row :=
  fun k => if k = (0, "k") then
    some { id := 9, requestHash := "h", state := .done, statusCode := some 200
           responseBody := [0], expiresAt := 0 }
  else none

/-- Request 0 reclaims the row and reserves the slot, request 1 finds the new
    row. -/
def reclaimRun : List Event :=
  [.request 0 .enter, .reply 0 1, .reply 0 1, .reply 0 2, .reply 0 2, .reply 0 3,
    .reply 0 4, .reply 0 4, .reply 0 5, .purge 6,
    .request 1 .enter, .reply 1 7, .reply 1 7, .reply 1 8, .reply 1 8]

/-- Its answers are an execution and the in-progress error. -/
theorem reclaim_one_call :
    ∃ s, run (step sharedKey) (holding expiredRow) reclaimRun = some s ∧ (s.reqs 0).Fresh ∧
      (s.reqs 1).begun = some (.error .inProgress) ∧
      ∀ r, sharedKey.slot r = some (0, "k") → (s.reqs r).Fresh → r = 0 := by
  have httl : (20 : Time) ≤ 1 + idempotencyTTL := by decide
  have h := reclaim_admits_one_executor sharedKey (0, "k") 1 20 (fun _ _ => httl) expiredRow
    { id := 9, requestHash := "h", state := .done, statusCode := some 200, responseBody := [0]
      expiresAt := 0 } rfl (by decide) (by decide) reclaimRun _ rfl (by decide)
  exact ⟨_, rfl, rfl, rfl, fun r hslot hf => h.1 r 0 hslot rfl hf rfl⟩

/-- Both requests read the expired row. Request 0 deletes it and reserves the
    slot before request 1 takes its delete. -/
def lateDeleteRun : List Event :=
  [.request 0 .enter, .reply 0 1, .reply 0 1, .reply 0 2,
    .request 1 .enter, .reply 1 1, .reply 1 1, .reply 1 2,
    .reply 0 3, .reply 0 3, .reply 0 4, .reply 0 4, .reply 0 4,
    .reply 1 5, .reply 1 5, .reply 1 6, .reply 1 6, .reply 1 6]

/-- The purge runs between the insert of request 0 and its select. -/
def purgedRun : List Event :=
  [.request 0 .enter, .reply 0 1, .reply 0 1, .purge 2, .reply 0 3]

/-- A late delete makes two executors, and a purge in between makes a call
    fail, with no database call failing and all clocks within the window. -/
theorem late_delete_two_executors :
    (∃ s, run (step sharedKey) (holding expiredRow) lateDeleteRun = some s ∧
      (∀ e ∈ lateDeleteRun, Within 1 20 e) ∧ (s.reqs 0).Fresh ∧ (s.reqs 1).Fresh) ∧
    (∃ s, run (step sharedKey) (holding expiredRow) purgedRun = some s ∧
      (∀ e ∈ purgedRun, Within 1 20 e) ∧ (s.reqs 0).begun = some (.error .noRows)) :=
  ⟨⟨_, rfl, by decide, rfl, rfl⟩, ⟨_, rfl, by decide, rfl⟩⟩

end CoopDB
