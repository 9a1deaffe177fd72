import CoopDB.Theory.Idempotency.AtMostOnce

/-!
# Which Row a Completion Writes

`Complete` addresses its row by workspace and key. The row has an id, but
neither `BeginOrReplay` returns it nor does `Complete` ask for it. So a request
that outlives its own row, which may expire, be purged or be reclaimed while
the statement runs, writes its result into whatever row the slot holds by then.
That row can carry another hash, and the result is replayed to requests with
that hash.

Where no completion meets another request's row, every row's result is its own
request's (`Owned`), whatever expires, is purged or is reclaimed in between.

## Main definitions

* `OwnReservation`: A `Complete` is answered only while the slot is empty or holds the
  row its request inserted.
* `CompletesOwn`: A completion changes no row but its own request's.
* `ProducedBy`: A request with the same slot and hash passed the result on.

## Theorems

* `complete_overwrites`: A completion does overwrite another's pending row.
* `attributed_step`: A step keeps results with the requests they are of.
* `own_reservation_frames_complete`: Under the condition no completion changes another
  row, and every replay is of a request with the same slot and hash.
* `late_complete_answers_for_another`: Three requests, and a replay of another body's
  result.
-/

namespace CoopDB

open ReadCommitted (Table)
open Transition (run Allowed)

/-- The request is about to call `Complete`. -/
def Phase.completing : Phase → Bool
  | .complete _ => true
  | _ => false

section

variable (d : Deployment)

/-- A call of `Complete` that takes effect is made while the slot is empty or
    holds the row the request inserted. -/
def OwnReservation (s : Gateway) : Event → Prop
  | .request r (.call (.ok _)) | .request r (.call (.lost _)) =>
    (s.reqs r).phase.completing = true →
      ∀ k ∈ d.slot r, ∀ row ∈ s.table.committed k, row.id = r
  | _ => True

instance (s : Gateway) (e : Event) : Decidable (OwnReservation d s e) :=
  match e with
  | .request r (.call (.ok _)) | .request r (.call (.lost _)) =>
    inferInstanceAs (Decidable ((s.reqs r).phase.completing = true →
      ∀ k ∈ d.slot r, ∀ row ∈ s.table.committed k, row.id = r))
  | .purge _ | .request _ .enter | .request _ .reject | .request _ (.call (.fail _))
  | .request _ (.execute _) | .request _ .panic | .request _ .cancel | .request _ .crash =>
    isTrue trivial

/-- If the step is a call of `Complete` by request `r`, the only rows it
    changes are rows `r` inserted. -/
def CompletesOwn (s : Gateway) (e : Event) : Prop :=
  ∀ r reply s', e = .request r (.call reply) → (s.reqs r).phase.completing = true →
    step d s e = some s' → ∀ k, s'.table.committed k ≠ s.table.committed k →
      ∃ row, s.table.committed k = some row ∧ row.id = r

variable (s s' : Gateway) (e : Event)

/-- What a call of `Complete` does to the rows: nothing, or it takes effect and
    writes its result into the row of its slot. -/
theorem committed_complete (hsound : Sound d s) {r : ReqId} {reply : Reply}
    (hphase : (s.reqs r).phase.completing = true)
    (hs : step d s (.request r (.call reply)) = some s') (k : Slot) :
    s'.table.committed k = s.table.committed k ∨
      ∃ c old, d.slot r = some k ∧ (s.reqs r).phase = .complete c ∧
        s.table.committed k = some old ∧
        s'.table.committed k = some (completed d.externals c old) ∧ ∀ e, reply ≠ .fail e := by
  cases hp : (s.reqs r).phase with
  | complete c =>
    rcases step_cases hs with ⟨r', a, T', l', heq, hm, rfl⟩ | ⟨now, heq, _⟩
    · cases heq
      have hidle : (s.reqs r).phase.writing = false := by rw [hp]; rfl
      have hnone := (hsound.held r).none_pending hidle k
      rcases committed_moved (hsound.held r) hm k with
        hsame | ⟨_, _, hpend, _⟩ | ⟨hpend, _⟩ | ⟨c', old, hslot, hphase', _, hold, hnew⟩
      · exact .inl hsame
      · exact absurd hpend (hnone _)
      · exact absurd hpend (hnone _)
      · rw [hp, Phase.complete.injEq] at hphase'
        subst hphase'
        -- A call that fails leaves the table as it is.
        by_cases hfail : ∃ e, reply = .fail e
        · rcases hfail with ⟨e, rfl⟩
          simp only [step, move, Option.map_eq_some_iff] at hs
          rcases hs with ⟨⟨T, l⟩, hmove, heq⟩
          rw [show (d.requests r).slot d.externals = some k from hslot] at hmove
          simp only [Reply.possible, if_true, storeCall, hp, Option.some.injEq,
            Prod.mk.injEq] at hmove
          rw [Gateway.mk.injEq] at heq
          left
          rw [← heq.1, ← hmove.1]
        · exact .inr ⟨c, old, hslot, rfl, hold, hnew, fun e he => hfail ⟨e, he⟩⟩
    · cases heq
  | _ => rw [hp] at hphase; exact absurd hphase Bool.false_ne_true

/-- Under the condition a step of `Complete` changes only its request's row. -/
theorem completesOwn_of_ownReservation (hsound : Sound d s) (e : Event) (h : OwnReservation d s e) :
    CompletesOwn d s e := by
  intro r reply s' he hphase hs k hne
  subst he
  rcases committed_complete d s s' hsound hphase hs k with
    hsame | ⟨c, old, hslot, _, hold, _, heffect⟩
  · exact absurd hsame hne
  · refine ⟨old, hold, ?_⟩
    cases reply with
    | ok | lost => exact h hphase k hslot old hold
    | fail detail => exact absurd rfl (heffect detail)

/-- A call of `Complete` that returns nil has written its result. -/
theorem committed_complete_ok {r : ReqId} {k : Slot} {c : Completion} {now : Time} {row : Row}
    (hslot : d.slot r = some k) (hphase : (s.reqs r).phase = .complete c)
    (hrow : s.table.committed k = some row)
    (hs : step d s (.request r (.call (.ok now))) = some s') :
    s'.table.committed k = some (completed d.externals c row) := by
  simp only [step, move, Option.map_eq_some_iff] at hs
  rcases hs with ⟨⟨T', l'⟩, hmove, rfl⟩
  rw [show (d.requests r).slot d.externals = some k from hslot] at hmove
  simp only [Option.ite_none_right_eq_some, storeCall, hphase, Option.map_eq_some_iff,
    Prod.mk.injEq] at hmove
  rcases hmove with ⟨_, T, hT, rfl, _⟩
  rcases Table.updateNow_cases _ _ hT with ⟨_, hnone⟩ | ⟨old, new, hold, hf, _, rfl⟩
  · rw [hrow] at hnone
    exact absurd hnone (by simp)
  · rw [hrow, Option.some.injEq] at hold
    subst hold
    simp only [Function.update_self]
    exact hf.symm

/-- The condition cannot be dropped: a completion that takes effect while its
    slot holds another request's pending row changes that row. -/
theorem complete_overwrites {r : ReqId} {k : Slot} {c : Completion} {now : Time} {row : Row}
    (hslot : d.slot r = some k) (hphase : (s.reqs r).phase = .complete c)
    (hrow : s.table.committed k = some row) (hstate : row.state = .pending) (hother : row.id ≠ r)
    (hs : step d s (.request r (.call (.ok now))) = some s') :
    ¬ CompletesOwn d s (.request r (.call (.ok now))) := by
  intro hframe
  have hcompleting : (s.reqs r).phase.completing = true := by rw [hphase]; rfl
  have hnew := committed_complete_ok d s s' hslot hphase hrow hs
  have hchanged : s'.table.committed k ≠ s.table.committed k := by
    rw [hnew, hrow]
    intro heq
    exact completed_state_ne_pending d c row
      ((congrArg Row.state (Option.some.inj heq)).trans hstate)
  rcases hframe r _ s' rfl hcompleting hs k hchanged with ⟨row', hrow', hid⟩
  rw [hrow, Option.some.injEq] at hrow'
  exact hother (hrow' ▸ hid)

/-- A request with the slot and the hash of request `r` passed exactly this
    result to `Complete`. -/
def ProducedBy (s : Gateway) (r : ReqId) (ir : IdempotencyResult) : Prop :=
  ∃ r' c, d.slot r' = d.slot r ∧ (d.requests r').requestHash = (d.requests r).requestHash ∧
    (s.reqs r').completion = some c ∧ ir.statusCode = c.status ∧ ir.body = c.body

/-- The invariant of a run: every row is its request's own, and every result
    that was read or returned has its producer. -/
structure Attributed (s : Gateway) : Prop where
  sound : Sound d s
  owned : ∀ k row, s.table.committed k = some row → Owned d k s row
  reading : ∀ r k ignoreError ir, d.slot r = some k →
    (s.reqs r).phase = .commitRead ignoreError (.ok ir) → ProducedBy d s r ir
  told : ∀ r k ir, d.slot r = some k → (s.reqs r).begun = some (.ok ir) → ir.replay = true →
    ProducedBy d s r ir

theorem attributed_initial : Attributed d initial where
  sound := sound_initial d
  owned k row hrow := absurd hrow (by simp [initial])
  reading r k b ir _ hphase := absurd hphase (by simp [initial, Local.initial])
  told r k ir _ hb := absurd hb (by simp [initial, Local.initial])

/-- A producer stays one. -/
theorem producedBy_step (hsound : Sound d s) (hs : step d s e = some s') (r : ReqId) (k : Slot)
    (hslot : d.slot r = some k) (ir : IdempotencyResult) (h : ProducedBy d s r ir) :
    ProducedBy d s' r ir := by
  rcases h with ⟨r', c, hsame, hhash, hc, hir⟩
  have htold := (told_step hsound hs (hsame.trans hslot)).2 (by rw [hc]; simp)
  exact ⟨r', c, hsame, hhash, htold.trans hc, hir⟩

/-- Served from a row of its own, a result has the row's request as its
    producer. -/
theorem producedBy_of_judge {r : ReqId} {k : Slot} (hslot : d.slot r = some k) {row : Row}
    (hown : Owned d k s row) {now : Time} {ir : IdempotencyResult}
    (hj : judge d.externals row (d.requests r).requestHash now = .serve (.ok ir)) :
    ProducedBy d s r ir := by
  by_cases hexp : row.expiresAt < now
  · rw [judge, if_pos hexp] at hj
    cases hj
  · rcases judge_owned hown (d.requests r).requestHash (Int.not_lt.mp hexp) with
      ⟨_, hj'⟩ | ⟨_, _, hj'⟩ | ⟨hhash, _, c, hc, hj'⟩
    · cases hj'.symm.trans hj
    · cases hj'.symm.trans hj
    · have hir := hj'.symm.trans hj
      simp only [Verdict.serve.injEq, Except.ok.injEq] at hir
      exact ⟨row.id, c, hown.slot.trans hslot.symm, hown.hash.symm.trans hhash, hc,
        by rw [← hir], by rw [← hir]⟩

/-- Every row after a step is its request's own. A new row is pending, and a
    completion writes the row its request inserted. -/
theorem owned_attributed_step (h : Attributed d s) (hg : OwnReservation d s e)
    (hs : step d s e = some s') (k : Slot) (row : Row) (hrow : s'.table.committed k = some row) :
    Owned d k s' row := by
  have hkeep := owned_step k h.sound hs
  rcases step_cases hs with ⟨r, a, T', l', rfl, hm, rfl⟩ | ⟨now, rfl, rfl⟩
  · rcases committed_moved (h.sound.held r) hm k with
      hsame | ⟨start, hslot, _, hnew, _⟩ | ⟨_, hnew⟩ | ⟨c, old, hslot, hphase, _, hold, hnew⟩
    · exact hkeep row (h.owned k row (hsame.symm.trans hrow))
    · rw [hnew, Option.some.injEq] at hrow
      subst hrow
      exact ⟨hslot, rfl, fun hstate => absurd rfl hstate⟩
    · rw [hnew] at hrow
      cases hrow
    · have hcompleting : (s.reqs r).phase.completing = true := by rw [hphase]; rfl
      have hcoh := h.sound.coherent r k hslot
      simp only [Coherent, hphase] at hcoh
      by_cases hsame : T'.committed k = s.table.committed k
      · exact hkeep row (h.owned k row (hsame.symm.trans hrow))
      · have hid : old.id = r := by
          cases a with
          | call reply =>
            rcases completesOwn_of_ownReservation d s h.sound _ hg r reply _ rfl hcompleting hs k
              hsame with ⟨row', hrow', hid⟩
            rw [hold, Option.some.injEq] at hrow'
            exact hrow' ▸ hid
          -- Nothing else a request does changes a row.
          | _ => cases hm; exact absurd rfl hsame
        have hown := hkeep old (h.owned k old hold)
        rw [hnew, Option.some.injEq] at hrow
        subst hrow
        refine ⟨hown.slot, hown.hash, fun _ => ⟨c, ?_, rfl, rfl⟩⟩
        have htold := (told_step h.sound hs hslot).2 (by rw [hcoh.2]; simp)
        rw [show (completed d.externals c old).id = r from hid]
        exact htold.trans hcoh.2
  · exact hkeep row (h.owned k row (committed_of_purge hrow))

/-- What is read has its producer. -/
theorem reading_attributed_step (h : Attributed d s) (hs : step d s e = some s') (r : ReqId)
    (k : Slot) (ignoreError : Bool) (ir : IdempotencyResult) (hslot : d.slot r = some k)
    (hphase : (s'.reqs r).phase = .commitRead ignoreError (.ok ir)) : ProducedBy d s' r ir := by
  have hkeep := producedBy_step d s s' e h.sound hs r k hslot ir
  rcases reading_cases h.sound hs r k hslot ignoreError _ hphase with
    hold | ⟨now, row, _, _, hrow, ⟨e', _, he⟩ | hj⟩
  · exact hkeep (h.reading r k ignoreError ir hslot hold)
  · cases he
  · exact hkeep (producedBy_of_judge d s hslot (h.owned k row hrow) hj)

/-- What is replayed has its producer. -/
theorem told_attributed_step (h : Attributed d s) (hs : step d s e = some s') (r : ReqId) (k : Slot)
    (ir : IdempotencyResult) (hslot : d.slot r = some k) (hb : (s'.reqs r).begun = some (.ok ir))
    (hreplay : ir.replay = true) : ProducedBy d s' r ir := by
  have hkeep := producedBy_step d s s' e h.sound hs r k hslot ir
  rcases begun_cases h.sound hs r k hslot _ hb with
    hold | hproceed | ⟨_, _, _, he, _⟩ | ⟨ignoreError, hphase⟩ | ⟨he, _⟩
  · exact hkeep (h.told r k ir hslot hold hreplay)
  · -- Being told to execute is not a replay.
    rw [Except.ok.injEq] at hproceed
    rw [hproceed] at hreplay
    exact absurd hreplay (by decide)
  · cases he
  · exact hkeep (h.reading r k ignoreError ir hslot hphase)
  · cases he

/-- One step keeps the whole invariant. -/
theorem attributed_step (s' : Gateway) (h : Attributed d s) (hg : OwnReservation d s e)
    (hs : step d s e = some s') : Attributed d s' :=
  { sound := sound_step h.sound hs
    owned := owned_attributed_step d s s' e h hg hs
    reading := reading_attributed_step d s s' e h hs
    told := told_attributed_step d s s' e h hs }

/-- In every run in which a completion takes effect only while its slot is
    empty or holds its own request's row, no completion changes another row,
    and every replay repeats the status and the body that a request with the
    same workspace, key and hash passed to `Complete`. -/
theorem own_reservation_frames_complete (es : List Event) (s : Gateway)
    (hown : Allowed (step d) (OwnReservation d) initial es)
    (hrun : run (step d) initial es = some s) :
    Allowed (step d) (CompletesOwn d) initial es ∧
    (∀ r k ir, d.slot r = some k → (s.reqs r).begun = some (.ok ir) → ir.replay = true →
      ∃ r' c, d.slot r' = some k ∧
        (d.requests r').requestHash = (d.requests r).requestHash ∧
        (s.reqs r').completion = some c ∧ ir.statusCode = c.status ∧ ir.body = c.body) := by
  constructor
  · exact Transition.allowed_of_invariant (Sound d)
      (fun s e s' hI _ hs => sound_step hI hs)
      (fun s e hI hG => completesOwn_of_ownReservation d s hI e hG) initial (sound_initial d) hown
  · have h := Transition.run_invariant (Attributed d)
      (attributed_initial d) (attributed_step d) hown hrun
    intro r k ir hslot hb hreplay
    rcases h.told r k ir hslot hb hreplay with ⟨r', c, hsame, hrest⟩
    exact ⟨r', c, hsame.trans hslot, hrest⟩

end

/-- Where nothing expires, each completion finds its own row, and the replay
    is the execution's. -/
theorem own_reservation_shared_key :
    ∃ s ir, run (step sharedKey) initial sharedKeyRun = some s ∧
      Allowed (step sharedKey) (CompletesOwn sharedKey) initial sharedKeyRun ∧
      (s.reqs 2).begun = some (.ok ir) ∧
      ∃ r' c, sharedKey.slot r' = some (0, "k") ∧
        (sharedKey.requests r').requestHash = (sharedKey.requests 2).requestHash ∧
        (s.reqs r').completion = some c ∧ ir.statusCode = c.status ∧ ir.body = c.body := by
  have h := own_reservation_frames_complete sharedKey sharedKeyRun _ (by decide) rfl
  exact ⟨_, _, rfl, h.1, rfl, h.2 2 (0, "k") _ rfl rfl rfl⟩

/-- Request 0 brings one body, all others another, under one key. -/
def lateComplete : Deployment :=
  { externals := storedExternals
    requests := fun r =>
      { endpoint := .sqlExecute, workspaceID := "w", idempotencyKey := "k"
        requestHash := if r = 0 then "h" else "g", ttl := idempotencyTTL }
    maxResponseBodyBytes := 0 }

/-- Request 0 reserves the key at instant 0, and takes longer than its row
    lives. Request 1 finds the row expired, reclaims it and reserves the key for
    the other body. -/
def lateCompleteRun : List Event :=
  let t := idempotencyTTL
  [.request 0 .enter, .reply 0 0, .reply 0 1, .reply 0 2,
    .request 0 (.execute (.sql (.error (.other "boom")))),
    .request 1 .enter, .reply 1 (t + 1), .reply 1 (t + 2), .reply 1 (t + 3), .reply 1 (t + 4),
    .reply 1 (t + 5), .reply 1 (t + 6), .reply 1 (t + 7), .reply 1 (t + 8)]

/-- Request 0 completes, and request 2 comes with the other body. -/
def lateCompleteRest : List Event :=
  let t := idempotencyTTL
  [.request 2 .enter, .reply 2 (t + 10), .reply 2 (t + 11), .reply 2 (t + 12), .reply 2 (t + 13)]

/-- The completion writes the row of request 1, and request 2 is replayed a
    result although no request with its hash has produced any. -/
theorem late_complete_answers_for_another :
    ∃ s, run (step lateComplete) initial
        (lateCompleteRun ++ .reply 0 (idempotencyTTL + 9) :: lateCompleteRest) = some s ∧
      ¬ Allowed (step lateComplete) (CompletesOwn lateComplete) initial
        (lateCompleteRun ++ .reply 0 (idempotencyTTL + 9) :: lateCompleteRest) ∧
      ∃ ir, (s.reqs 2).begun = some (.ok ir) ∧ ir.replay = true ∧
        ∀ r', (lateComplete.requests r').requestHash = (lateComplete.requests 2).requestHash →
          (s.reqs r').completion = none := by
  refine ⟨_, rfl, fun hall => ?_, _, rfl, rfl, fun r' hhash => ?_⟩
  · have hend := Transition.allowed_append.mp hall
    exact complete_overwrites lateComplete _ _ rfl rfl rfl rfl (by decide) rfl (hend.2 _ rfl).1
  · -- Only request 0 has executed, and its hash is the other one.
    rcases r' with _ | _ | _ | n
    · exact absurd hhash (by decide)
    · rfl
    · rfl
    · rfl

end CoopDB
