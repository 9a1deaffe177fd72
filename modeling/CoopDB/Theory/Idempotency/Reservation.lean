import CoopDB.Theory.Idempotency.Steps

/-!
# The Row That Stands for an Execution

What protects a slot of the idempotency table, over any interleaving.

The rows of a slot are split by their expiry into dead ones and live ones: a
dead row may be reclaimed, a live one must not be. Which is which is a
parameter, since the two results that use this module draw the line
differently. Where nothing expires there are no dead rows, and where an expired
row is reclaimed the dead rows are those that expired before the run began.

Two requests that were told to execute would have the same live row, so there is at
most one.

## Main definitions

* `Reserved`: A live row belongs to the request that inserted it, a stored result is what
  that request passed to `Complete`, and a request that was told to execute has its live
  row in the table.
* `Undisturbed`: No live row is deleted, by a purge or by a request on its reclaim path,
  and no new row is dead from the start.
* `DatabaseFailed`: An answer that is the error of a failed call.

## Theorems

* `live_row_step`, `live_row_survives`: A live row stays through a step.
* `reserved_step`: The invariant is kept.
* `fresh_unique`: At most one request is told to execute.
* `judge_owned`: What becomes of a request that reads a live row.
-/

namespace CoopDB

open ReadCommitted (Table)

/-- The answer is the error of a database call of the request that failed. -/
def DatabaseFailed (es : List Event) (r : ReqId) (a : Answer) : Prop :=
  ∃ e, a = .error (.database e) ∧
    (.request r (.call (.fail e)) ∈ es ∨ .request r (.call (.lost e)) ∈ es)

theorem DatabaseFailed.mono {es : List Event} (es' : List Event) (r : ReqId) (a : Answer)
    (h : DatabaseFailed es r a) : DatabaseFailed (es ++ es') r a := by
  rcases h with ⟨e, ha, hmem⟩
  exact ⟨e, ha, hmem.imp (List.mem_append_left es') (List.mem_append_left es')⟩

/-- The call that has just failed. -/
theorem databaseFailed_snoc (es : List Event) (r : ReqId) (act : Act) (a : Answer)
    (h : ∃ e, a = .error (.database e) ∧ (act = .call (.fail e) ∨ act = .call (.lost e))) :
    DatabaseFailed (es ++ [.request r act]) r a := by
  rcases h with ⟨e, ha, rfl | rfl⟩
  · exact ⟨e, ha, .inl (List.mem_append_right es (List.mem_singleton_self _))⟩
  · exact ⟨e, ha, .inr (List.mem_append_right es (List.mem_singleton_self _))⟩

section

variable (d : Deployment) (dead : Time → Prop) (k : Slot)

/-- A row belongs to the request that inserted it: it carries its hash, and
    its result is what that request passed to `Complete`. -/
structure Owned (s : Gateway) (row : Row) : Prop where
  slot : d.slot row.id = some k
  hash : row.requestHash = (d.requests row.id).requestHash
  result : row.state ≠ .pending → ∃ c, (s.reqs row.id).completion = some c ∧
    row.statusCode = some c.status ∧ row.responseBody = gzipBytes d.externals c.body

/-- The invariant of slot `k`. -/
structure Reserved (s : Gateway) : Prop where
  starting : ∀ r start, d.slot r = some k → (s.reqs r).phase = .insert start →
    ¬ dead (start + (d.requests r).ttl)
  inserting : ∀ r row, s.table.pending k = some (r, some row) →
    s.table.committed k = none ∧ ¬ dead row.expiresAt
  deleting : ∀ r, s.table.pending k = some (r, none) →
    ∃ row, s.table.committed k = some row ∧ dead row.expiresAt
  owned : ∀ row, s.table.committed k = some row → ¬ dead row.expiresAt → Owned d k s row
  fresh : ∀ r, d.slot r = some k → (s.reqs r).Fresh →
    ∃ row, s.table.committed k = some row ∧ ¬ dead row.expiresAt ∧ row.id = r

/-- The step destroys no live row of the slot, and begins no transaction whose
    row would be dead. -/
def Undisturbed (s : Gateway) : Event → Prop
  | .purge now => ∀ row, s.table.committed k = some row → ¬ dead row.expiresAt →
      now ≤ row.expiresAt
  | .request r (.call (.ok now)) => d.slot r = some k →
      ((s.reqs r).phase = .begin → ¬ dead (now + (d.requests r).ttl)) ∧
      ((s.reqs r).phase = .delete → ∀ row, s.table.committed k = some row → dead row.expiresAt)
  | _ => True

/-- `Complete` leaves no row pending, whichever way the execution went. -/
theorem completed_state_ne_pending (c : Completion) (row : Row) :
    (completed d.externals c row).state ≠ .pending := by
  unfold completed
  cases c.ok with
  | true | false => simp

variable {d} {s s' : Gateway} {e : Event}

/-- A row stays its owner's: what the owner passed on does not change. -/
theorem owned_step (hsound : Sound d s) (hs : step d s e = some s') (row : Row)
    (hown : Owned d k s row) : Owned d k s' row := by
  refine ⟨hown.slot, hown.hash, fun hstate => ?_⟩
  rcases hown.result hstate with ⟨c, hc, hres⟩
  have htold := (told_step hsound hs hown.slot).2 (by rw [hc]; simp)
  exact ⟨c, htold.trans hc, hres⟩

variable {dead k}

/-- At most one request is told to execute: both have the slot's one live
    row. -/
theorem fresh_unique (h : Reserved d dead k s) (r r' : ReqId) (hr : d.slot r = some k)
    (hr' : d.slot r' = some k) (hf : (s.reqs r).Fresh) (hf' : (s.reqs r').Fresh) : r = r' := by
  rcases h.fresh r hr hf with ⟨row, hrow, _, hid⟩
  rcases h.fresh r' hr' hf' with ⟨row', hrow', _, hid'⟩
  rw [hrow, Option.some.injEq] at hrow'
  rw [← hid, ← hid', hrow']

/-- A purge leaves a slot's row alone if it is locked or not yet expired. -/
theorem committed_purge {T : KeyTable} {now : Time} {row : Row} (hrow : T.committed k = some row)
    (h : (∃ p, T.pending k = some p) ∨ now ≤ row.expiresAt) :
    (T.deleteWhere (fun row => row.expiresAt < now)).committed k = some row := by
  simp only [Table.deleteWhere]
  cases hp : T.pending k with
  | some => exact hrow
  | none =>
    rcases h with ⟨p, hp'⟩ | hle
    · cases hp.symm.trans hp'
    · have hkeep : (!decide (row.expiresAt < now)) = true := by
        simp only [Bool.not_eq_true', decide_eq_false_iff_not, Int.not_lt]
        exact hle
      simp only [hrow, Option.filter_some, hkeep, if_true]

/-- A row that is there after a purge was there before it. -/
theorem committed_of_purge {T : KeyTable} {now : Time} {row : Row}
    (h : (T.deleteWhere (fun row => row.expiresAt < now)).committed k = some row) :
    T.committed k = some row := by
  simp only [Table.deleteWhere] at h
  cases hp : T.pending k with
  | some => rw [hp] at h; exact h
  | none => rw [hp] at h; exact (Option.filter_eq_some_iff.mp h).1

/-- A live row stays through a step, as it is or with a result in it. -/
theorem live_row_step (hsound : Sound d s) (h : Reserved d dead k s) (hg : Undisturbed d dead k s e)
    (hs : step d s e = some s') {row : Row} (hrow : s.table.committed k = some row)
    (hlive : ¬ dead row.expiresAt) : s'.table.committed k = some row ∨
      ∃ c, s'.table.committed k = some (completed d.externals c row) := by
  rcases step_cases hs with ⟨r, a, T', l', rfl, hm, rfl⟩ | ⟨now, rfl, rfl⟩
  · rcases committed_moved (hsound.held r) hm k with
      hsame | ⟨start, _, hp, _⟩ | ⟨hp, _⟩ | ⟨c, old, _, _, _, hold, hnew⟩
    · exact .inl (hsame.trans hrow)
    · -- An insert is under way only while the slot is empty.
      rw [(h.inserting r _ hp).1] at hrow
      cases hrow
    · -- A delete is under way only on a dead row.
      rcases h.deleting r hp with ⟨row', hrow', hdead⟩
      rw [hrow, Option.some.injEq] at hrow'
      exact absurd (hrow' ▸ hdead) hlive
    · rw [hrow, Option.some.injEq] at hold
      subst hold
      exact .inr ⟨c, hnew⟩
  · exact .inl (committed_purge hrow (.inr (hg row hrow hlive)))

/-- A live row stays through a step, under the same owner and with the same
    expiry. -/
theorem live_row_survives (hsound : Sound d s) (h : Reserved d dead k s)
    (hg : Undisturbed d dead k s e) (hs : step d s e = some s') {row : Row}
    (hrow : s.table.committed k = some row) (hlive : ¬ dead row.expiresAt) :
    ∃ row', s'.table.committed k = some row' ∧ row'.id = row.id ∧
      row'.expiresAt = row.expiresAt := by
  rcases live_row_step hsound h hg hs hrow hlive with hsame | ⟨c, hnew⟩
  · exact ⟨row, hsame, rfl, rfl⟩
  · exact ⟨_, hnew, rfl, rfl⟩

section

variable {r : ReqId} {a : Act} {T' : KeyTable} {l' : Local} (hsound : Sound d s)
  (h : Reserved d dead k s) (hg : Undisturbed d dead k s (.request r a))
  (hs : step d s (.request r a) = some { table := T', reqs := Function.update s.reqs r l' })
  (hm : Moved d.externals (d.requests r) d.maxResponseBodyBytes r s.table (s.reqs r) a T' l')

include hsound h hg hm

theorem starting_request (r' : ReqId) (start : Time) (hslot : d.slot r' = some k)
    (hphase : (Function.update s.reqs r l' r').phase = .insert start) :
    ¬ dead (start + (d.requests r').ttl) := by
  by_cases hr : r' = r
  · subst hr
    rw [Function.update_self] at hphase
    have hcame := phase_moved (hsound.held r') hm
    rw [hphase] at hcame
    rcases hcame with hold | ⟨hbegin, rfl⟩
    · exact h.starting r' start hslot hold
    · exact (hg hslot).1 hbegin
  · rw [Function.update_of_ne hr] at hphase
    exact h.starting r' start hslot hphase

omit hg in
theorem inserting_request (r' : ReqId) (row : Row) (hp : T'.pending k = some (r', some row)) :
    T'.committed k = none ∧ ¬ dead row.expiresAt := by
  by_cases hr : r' = r
  · subst hr
    rcases pending_moved_self (hsound.held r') hm k _ hp with
      ⟨hp', rfl⟩ | ⟨hsame, ⟨start, hslot, hphase, hv, hnone⟩ | ⟨_, _, hv, _⟩⟩
    · exact h.inserting r' row hp'
    · rw [Option.some.injEq] at hv
      refine ⟨by rw [hsame]; exact hnone, ?_⟩
      rw [hv]
      exact h.starting r' start hslot hphase
    · cases hv
  · have hp' := (pending_moved_of_ne hm hr k _).mp hp
    rw [committed_moved_of_locked (hsound.held r) hm hr hp']
    exact h.inserting r' row hp'

theorem deleting_request (r' : ReqId) (hp : T'.pending k = some (r', none)) :
    ∃ row, T'.committed k = some row ∧ dead row.expiresAt := by
  by_cases hr : r' = r
  · subst hr
    rcases pending_moved_self (hsound.held r') hm k _ hp with
      ⟨hp', rfl⟩ | ⟨hsame, ⟨_, _, _, hv, _⟩ | ⟨hslot, hphase, _, ⟨old, hold⟩, now, rfl⟩⟩
    · exact h.deleting r' hp'
    · cases hv
    · -- The delete found a row, which the guard says is dead.
      refine ⟨old, by rw [hsame]; exact hold, (hg hslot).2 hphase old hold⟩
  · have hp' := (pending_moved_of_ne hm hr k _).mp hp
    rw [committed_moved_of_locked (hsound.held r) hm hr hp']
    exact h.deleting r' hp'

include hs

omit hg in
theorem owned_request (row : Row) (hrow : T'.committed k = some row)
    (hlive : ¬ dead row.expiresAt) :
    Owned d k { table := T', reqs := Function.update s.reqs r l' } row := by
  have hkeep := owned_step k hsound hs
  rcases committed_moved (hsound.held r) hm k with
    hsame | ⟨start, hslot, _, hnew, _⟩ | ⟨_, hnew⟩ | ⟨c, old, hslot, hphase, _, hold, hnew⟩
  · exact hkeep row (h.owned row (hsame.symm.trans hrow) hlive)
  · rw [hnew, Option.some.injEq] at hrow
    subst hrow
    exact ⟨hslot, rfl, fun hstate => absurd rfl hstate⟩
  · rw [hnew] at hrow
    cases hrow
  · -- The request that completes was told to execute, so the row is its own.
    have hcoh := hsound.coherent r k hslot
    simp only [Coherent, hphase] at hcoh
    rcases h.fresh r hslot hcoh.1 with ⟨row', hrow', hlive', hid⟩
    rw [hold, Option.some.injEq] at hrow'
    subst hrow'
    have hown := hkeep old (h.owned old hold hlive')
    rw [hnew, Option.some.injEq] at hrow
    subst hrow
    refine ⟨hown.slot, hown.hash, fun _ => ⟨c, ?_, rfl, rfl⟩⟩
    have htold := (told_step hsound hs hslot).2 (by rw [hcoh.2]; simp)
    rw [show (completed d.externals c old).id = r from hid]
    exact htold.trans hcoh.2

theorem fresh_request (r' : ReqId) (hslot : d.slot r' = some k)
    (hf : (Function.update s.reqs r l' r').Fresh) :
    ∃ row, T'.committed k = some row ∧ ¬ dead row.expiresAt ∧ row.id = r' := by
  have hsurvive : (s.reqs r').Fresh → ∃ row, T'.committed k = some row ∧
      ¬ dead row.expiresAt ∧ row.id = r' := by
    intro hf
    rcases h.fresh r' hslot hf with ⟨row, hrow, hlive, hid⟩
    rcases live_row_survives hsound h hg hs hrow hlive with
      ⟨row', hrow', hid', hexp⟩
    exact ⟨row', hrow', by rw [hexp]; exact hlive, hid'.trans hid⟩
  by_cases hr : r' = r
  · subst hr
    rw [Function.update_self] at hf
    rcases fresh_moved (hsound.coherent r' k hslot) hm hf with
      hold | ⟨hphase, rfl⟩
    · exact hsurvive hold
    · -- It is told so by the commit that makes its row visible.
      rcases (hsound.held r').insert k hslot hphase with ⟨start, hp⟩
      exact ⟨_, Table.committed_commit_of_owner _ _ _ hp, (h.inserting r' _ hp).2, rfl⟩
  · rw [Function.update_of_ne hr] at hf
    exact hsurvive hf

/-- The invariant of a slot is kept by a step of a request. -/
theorem reserved_request :
    Reserved d dead k { table := T', reqs := Function.update s.reqs r l' } :=
  { starting := starting_request hsound h hg hm
    inserting := inserting_request hsound h hm
    deleting := deleting_request hsound h hg hm
    owned := owned_request hsound h hs hm
    fresh := fresh_request hsound h hg hs hm }

end

/-- The invariant of a slot is kept by a purge that leaves its live rows
    alone. -/
theorem reserved_purge (now : Time) (h : Reserved d dead k s)
    (hg : Undisturbed d dead k s (.purge now)) :
    Reserved d dead k { s with table := s.table.deleteWhere (fun row => row.expiresAt < now) } := by
  -- A purge passes over a row somebody has locked.
  have hlocked : ∀ p, s.table.pending k = some p →
      (s.table.deleteWhere (fun row => row.expiresAt < now)).committed k = s.table.committed k := by
    intro p hp
    simp only [Table.deleteWhere, hp]
  refine ⟨h.starting, fun r row hp => ?_, fun r hp => ?_, fun row hrow hlive => ?_,
    fun r hslot hf => ?_⟩
  · rw [hlocked _ hp]
    exact h.inserting r row hp
  · rw [hlocked _ hp]
    exact h.deleting r hp
  · have hown := h.owned row (committed_of_purge hrow) hlive
    exact ⟨hown.slot, hown.hash, hown.result⟩
  · rcases h.fresh r hslot hf with ⟨row, hrow, hlive, hid⟩
    exact ⟨row, committed_purge hrow (.inr (hg row hrow hlive)), hlive, hid⟩

/-- The invariant of a slot is kept by every step that leaves its live rows
    alone. -/
theorem reserved_step (hsound : Sound d s) (h : Reserved d dead k s) (hg : Undisturbed d dead k s e)
    (hs : step d s e = some s') : Reserved d dead k s' := by
  rcases step_cases hs with ⟨r, a, T', l', rfl, hm, rfl⟩ | ⟨now, rfl, rfl⟩
  · exact reserved_request hsound h hg hs hm
  · exact reserved_purge now h hg

/-- What becomes of a request that reads a live row: it is refused with a
    conflict if its hash is another, refused as in progress if the row is still
    pending, and otherwise served the result the row's owner passed to
    `Complete`. -/
theorem judge_owned {row : Row} (h : Owned d k s row) (requestHash : String) {now : Time}
    (hnow : now ≤ row.expiresAt) : (row.requestHash ≠ requestHash ∧
      judge d.externals row requestHash now = .refuse .conflict) ∨
    (row.requestHash = requestHash ∧ row.state = .pending ∧
      judge d.externals row requestHash now = .refuse .inProgress) ∨
    (row.requestHash = requestHash ∧ row.state ≠ .pending ∧
      ∃ c, (s.reqs row.id).completion = some c ∧
        judge d.externals row requestHash now
          = .serve (.ok { replay := true, statusCode := c.status, body := c.body })) := by
  have hkept : ¬ row.expiresAt < now := Int.not_lt.mpr hnow
  by_cases hhash : row.requestHash = requestHash
  · by_cases hstate : row.state = .pending
    · refine .inr (.inl ⟨hhash, hstate, ?_⟩)
      simp [judge, if_neg hkept, hhash, hstate]
    · rcases h.result hstate with ⟨c, hc, hstatus, hbody⟩
      refine .inr (.inr ⟨hhash, hstate, c, hc, ?_⟩)
      simp [judge, if_neg hkept, hhash, if_neg hstate, hbody, gunzip_gzipBytes, hstatus]
  · refine .inl ⟨hhash, ?_⟩
    simp [judge, if_neg hkept, hhash]

end

end CoopDB
