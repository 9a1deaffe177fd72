import CoopDB.Theory.Idempotency.Reservation

/-!
# At Most One Execution for a Key

One workspace and idempotency key, over every interleaving of any number of
requests, with crashes, disconnects, panics and failing calls, as long as no
row of the slot passes its expiry.

The row an answer is measured against is the one the request read, so
`Justified` points back into the run, at the step in which the select was
taken. A request whose database call fails gets the database's error instead;
`DatabaseFailed` says which call it was.

## Main definitions

* `NoExpiry`: No clock reading is past the expiry of the slot's row.
* `executions`: How often the run executes for the slot.
* `AnsweredBy`, `Justified`: The answer a row calls for, and that it was read: a conflict
  for another hash, the in-progress error for a pending row, and else what the executor
  passed to `Complete`.
* `Once`: The invariant of a run.

## Theorems

* `unreclaimed_step`: Without expiry nothing is reclaimed.
* `once_step`, `once_run`: The invariant is kept.
* `at_most_once_execution`: At most one execution takes place, by the one request that
  was told to execute, and every other answer is justified.
* `at_most_once_shared_key`: A run with each kind of answer.
-/

namespace CoopDB

open Transition (run Allowed)

section

variable (d : Deployment) (k : Slot)

/-- No clock reading that is compared with the slot's row is past its
    expiry. -/
def NoExpiry (s : Gateway) : Event → Prop
  | .purge now => ∀ row ∈ s.table.committed k, now ≤ row.expiresAt
  | .request r (.call (.ok now)) => d.slot r = some k → (s.reqs r).phase = .select →
      ∀ row ∈ s.table.committed k, now ≤ row.expiresAt
  | _ => True

instance (s : Gateway) (e : Event) : Decidable (NoExpiry d k s e) :=
  match e with
  | .purge now => inferInstanceAs (Decidable (∀ row ∈ s.table.committed k, now ≤ row.expiresAt))
  | .request r (.call (.ok now)) => inferInstanceAs (Decidable (d.slot r = some k →
      (s.reqs r).phase = .select → ∀ row ∈ s.table.committed k, now ≤ row.expiresAt))
  | .request _ .enter | .request _ .reject | .request _ (.call (.fail _))
  | .request _ (.call (.lost _)) | .request _ (.execute _) | .request _ .panic
  | .request _ .cancel | .request _ .crash => isTrue trivial

/-- The event is an execution for the slot. -/
def isExecution : Event → Bool
  | .request r (.execute _) => decide (d.slot r = some k)
  | _ => false

/-- How often a run executes for the slot. -/
def executions (es : List Event) : Nat :=
  es.countP (isExecution d k)

/-- Nobody is on the reclaim path of the slot, and a request that is about to
    read finds a row. -/
structure Unreclaimed (s : Gateway) : Prop where
  phase : ∀ r, d.slot r = some k → (s.reqs r).phase ≠ .delete ∧ (s.reqs r).phase ≠ .commitDelete
  row : ∀ r, d.slot r = some k → (s.reqs r).phase = .select → ∃ row, s.table.committed k = some row

/-- The answer a row calls for. The result is the one its owner, the request
    that was told to execute, passed to `Complete`. -/
def AnsweredBy (s : Gateway) (r : ReqId) (row : Row) (a : Answer) : Prop :=
  (a = .error .conflict ↔ row.requestHash ≠ (d.requests r).requestHash) ∧
  (a = .error .inProgress ↔
    row.requestHash = (d.requests r).requestHash ∧ row.state = .pending) ∧
  (row.requestHash = (d.requests r).requestHash → row.state ≠ .pending →
    (s.reqs row.id).Fresh ∧ ∃ c, (s.reqs row.id).completion = some c ∧
      a = .ok { replay := true, statusCode := c.status, body := c.body })

/-- Somewhere in the run the request read a row of the slot, and its answer is
    the one that row calls for. -/
def Justified (es : List Event) (s : Gateway) (r : ReqId) (a : Answer) : Prop :=
  ∃ pre now post t row, es = pre ++ .request r (.call (.ok now)) :: post ∧
    run (step d) initial pre = some t ∧ (t.reqs r).phase = .select ∧
    t.table.committed k = some row ∧ d.slot row.id = some k ∧ AnsweredBy d s r row a

/-- The invariant of a run: the slot is protected, every answer has its reason
    in the events so far, and an execution has left its mark. -/
structure Once (es : List Event) (s : Gateway) : Prop where
  sound : Sound d s
  reserved : Reserved d (fun _ => False) k s
  unreclaimed : Unreclaimed d k s
  reading : ∀ r ignoreError a, d.slot r = some k → (s.reqs r).phase = .commitRead ignoreError a →
    Justified d k es s r a
  told : ∀ r a, d.slot r = some k → (s.reqs r).begun = some a →
    a = .ok proceed ∨ DatabaseFailed es r a ∨ Justified d k es s r a
  executed : executions d k es ≤ 1
  marked : ∀ r o, .request r (.execute o) ∈ es → d.slot r = some k →
    (s.reqs r).completion ≠ none

variable {d k} {es : List Event} {s s' : Gateway} {e : Event}

theorem isExecution_eq_true :
    isExecution d k e = true ↔ ∃ r o, e = .request r (.execute o) ∧ d.slot r = some k := by
  constructor
  · intro h
    unfold isExecution at h
    split at h
    case h_1 r o => exact ⟨r, o, rfl, of_decide_eq_true h⟩
    case h_2 => exact absurd h (by simp)
  · intro h
    rcases h with ⟨r, o, he, hslot⟩
    rw [he]
    exact decide_eq_true hslot

/-- Where nothing expires, no row of the slot is dead. -/
theorem undisturbed_of_noExpiry (h : Unreclaimed d k s) (hg : NoExpiry d k s e) :
    Undisturbed d (fun _ => False) k s e := by
  match e with
  | .purge now => exact fun row hrow _ => hg row hrow
  | .request r (.call (.ok now)) =>
    exact fun hslot => ⟨fun _ => not_false, fun hphase => absurd hphase (h.phase r hslot).1⟩
  | .request _ .enter | .request _ .reject | .request _ (.call (.fail _))
  | .request _ (.call (.lost _)) | .request _ (.execute _) | .request _ .panic
  | .request _ .cancel | .request _ .crash => exact trivial

/-- Without expiry nothing is reclaimed. -/
theorem unreclaimed_step (hsound : Sound d s) (hres : Reserved d (fun _ => False) k s)
    (h : Unreclaimed d k s) (hg : NoExpiry d k s e) (hs : step d s e = some s') :
    Unreclaimed d k s' := by
  have hund := undisturbed_of_noExpiry h hg
  -- With nothing dead, a row that is there stays there.
  have hrow' : ∀ row, s.table.committed k = some row →
      ∃ row', s'.table.committed k = some row' := by
    intro row hrow
    rcases live_row_survives hsound hres hund hs hrow not_false with
      ⟨row', hrow', _⟩
    exact ⟨row', hrow'⟩
  rcases step_cases hs with ⟨r, a, T', l', rfl, hm, rfl⟩ | ⟨now, rfl, rfl⟩
  · have hcame := phase_moved (hsound.held r) hm
    refine ⟨fun r' hslot => ?_, fun r' hslot hphase => ?_⟩
    · by_cases hr : r' = r
      · subst hr
        simp only [Function.update_self]
        constructor
        · intro hphase
          rw [hphase] at hcame
          rcases hcame with hold | ⟨k', now, row, hslot', hsel, rfl, hrow, hexp⟩
          · exact (h.phase r' hslot).1 hold
          · -- It found its row expired, which no reading allows.
            have hk : k = k' := Option.some.inj (hslot.symm.trans hslot')
            subst hk
            exact absurd hexp (Int.not_lt.mpr (hg hslot hsel row hrow))
        · intro hphase
          rw [hphase] at hcame
          rcases hcame with hold | hold
          · exact (h.phase r' hslot).2 hold
          · exact (h.phase r' hslot).1 hold
      · simp only [Function.update_of_ne hr]
        exact h.phase r' hslot
    · by_cases hr : r' = r
      · subst hr
        simp only [Function.update_self] at hphase
        rw [hphase] at hcame
        rcases hcame with hold | ⟨k', old, hslot', hold⟩
        · rcases h.row r' hslot hold with ⟨row, hrow⟩
          exact hrow' row hrow
        · have hk : k = k' := Option.some.inj (hslot.symm.trans hslot')
          subst hk
          exact hrow' old hold
      · simp only [Function.update_of_ne hr] at hphase
        rcases h.row r' hslot hphase with ⟨row, hrow⟩
        exact hrow' row hrow
  · refine ⟨h.phase, fun r hslot hphase => ?_⟩
    rcases h.row r hslot hphase with ⟨row, hrow⟩
    exact hrow' row hrow

/-- An answer called for by a row stays so: what the owner was told and what
    it passed on do not change. -/
theorem answeredBy_step (hsound : Sound d s) (hs : step d s e = some s') {r : ReqId} {row : Row}
    {a : Answer} (hslot : d.slot row.id = some k) (h : AnsweredBy d s r row a) :
    AnsweredBy d s' r row a := by
  refine ⟨h.1, h.2.1, fun hhash hstate => ?_⟩
  rcases h.2.2 hhash hstate with ⟨hf, c, hc, ha⟩
  have htold := told_step hsound hs hslot
  have hbegun : (s.reqs row.id).begun = some (.ok proceed) := hf
  refine ⟨?_, c, ?_, ha⟩
  · exact (htold.1 (by rw [hbegun]; simp)).trans hf
  · exact (htold.2 (by rw [hc]; simp)).trans hc

/-- A justified answer stays justified. -/
theorem justified_step (hsound : Sound d s) (hs : step d s e = some s') {r : ReqId} {a : Answer}
    (h : Justified d k es s r a) : Justified d k (es ++ [e]) s' r a := by
  rcases h with ⟨pre, now, post, t, row, rfl, ht, hsel, hrow, hslot, hans⟩
  refine ⟨pre, now, post ++ [e], t, row, ?_, ht, hsel, hrow, hslot,
    answeredBy_step hsound hs hslot hans⟩
  rw [List.append_assoc, List.cons_append]

/-- What a request makes of a row it reads is what the row calls for. -/
theorem answeredBy_of_judge (hsound : Sound d s) {r : ReqId} {row : Row} (hown : Owned d k s row)
    {now : Time} (hnow : now ≤ row.expiresAt) {a : Answer}
    (h : (∃ e, judge d.externals row (d.requests r).requestHash now = .refuse e ∧ a = .error e) ∨
      judge d.externals row (d.requests r).requestHash now = .serve a) :
    AnsweredBy d s r row a := by
  rcases judge_owned hown (d.requests r).requestHash hnow with
    ⟨hhash, hj⟩ | ⟨hhash, hstate, hj⟩ | ⟨hhash, hstate, c, hc, hj⟩
  · have ha : a = .error .conflict := by
      rcases h with ⟨e, he, rfl⟩ | he
      · rw [hj, Verdict.refuse.injEq] at he
        rw [he]
      · rw [hj] at he
        cases he
    subst ha
    refine ⟨⟨fun _ => hhash, fun _ => rfl⟩, ⟨fun h => absurd h (by simp), fun h => ?_⟩,
      fun h => absurd h hhash⟩
    exact absurd h.1 hhash
  · have ha : a = .error .inProgress := by
      rcases h with ⟨e, he, rfl⟩ | he
      · rw [hj, Verdict.refuse.injEq] at he
        rw [he]
      · rw [hj] at he
        cases he
    subst ha
    refine ⟨⟨fun h => absurd h (by simp), fun h => absurd hhash h⟩,
      ⟨fun _ => ⟨hhash, hstate⟩, fun _ => rfl⟩, fun _ h => absurd hstate h⟩
  · have ha : a = .ok { replay := true, statusCode := c.status, body := c.body } := by
      rcases h with ⟨e, he, rfl⟩ | he
      · rw [hj] at he
        cases he
      · rw [hj, Verdict.serve.injEq] at he
        exact he.symm
    subst ha
    refine ⟨⟨fun h => absurd h (by simp), fun h => absurd hhash h⟩,
      ⟨fun h => absurd h (by simp), fun h => absurd h.2 hstate⟩, fun _ _ => ?_⟩
    exact ⟨(hsound.coherent row.id k hown.slot).fresh_of_completion c hc, c, hc, rfl⟩

theorem once_initial : Once d k [] initial := by
  refine ⟨sound_initial d, ⟨?_, ?_, ?_, ?_, ?_⟩, ⟨?_, ?_⟩, ?_, ?_, Nat.zero_le 1, ?_⟩
  all_goals intros
  all_goals simp_all [initial, Local.initial, Local.Fresh]

/-- A request that is about to return what it read has read it in the run. -/
theorem reading_step (hrun : run (step d) initial es = some s) (h : Once d k es s)
    (hg : NoExpiry d k s e) (hs : step d s e = some s') (r : ReqId) (ignoreError : Bool)
    (a : Answer) (hslot : d.slot r = some k)
    (hphase : (s'.reqs r).phase = .commitRead ignoreError a) :
    Justified d k (es ++ [e]) s' r a := by
  rcases reading_cases h.sound hs r k hslot ignoreError a hphase with
    hold | ⟨now, row, hsel, rfl, hrow, hj⟩
  · exact justified_step h.sound hs (h.reading r ignoreError a hslot hold)
  · -- It reads the row in this step, before the table changes again.
    have hown := h.reserved.owned row hrow not_false
    have hans := answeredBy_of_judge h.sound hown (hg hslot hsel row hrow) hj
    exact ⟨es, now, [], s, row, rfl, hrun, hsel, hrow, hown.slot,
      answeredBy_step h.sound hs hown.slot hans⟩

/-- An answer comes from a failed call or from a row the request read. -/
theorem told_once_step (h : Once d k es s) (hs : step d s e = some s') (r : ReqId) (a : Answer)
    (hslot : d.slot r = some k) (hbegun : (s'.reqs r).begun = some a) :
    a = .ok proceed ∨ DatabaseFailed (es ++ [e]) r a ∨ Justified d k (es ++ [e]) s' r a := by
  have hkeep : (s.reqs r).begun = some a →
      a = .ok proceed ∨ DatabaseFailed (es ++ [e]) r a ∨ Justified d k (es ++ [e]) s' r a := by
    intro hb
    rcases h.told r a hslot hb with ha | hfail | hj
    · exact .inl ha
    · exact .inr (.inl (hfail.mono [e] r a))
    · exact .inr (.inr (justified_step h.sound hs hj))
  rcases begun_cases h.sound hs r k hslot a hbegun with
    hb | ha | ⟨act, rfl, hfail⟩ | ⟨ignoreError, hphase⟩ | ⟨_, hsel, hnone, _⟩
  · exact hkeep hb
  · exact .inl ha
  · exact .inr (.inl (databaseFailed_snoc es r _ a hfail))
  · exact .inr (.inr (justified_step h.sound hs (h.reading r ignoreError a hslot hphase)))
  · -- A request about to read finds a row.
    rcases h.unreclaimed.row r hslot hsel with ⟨row, hrow⟩
    exact nomatch (hnone ▸ hrow)

/-- An execution leaves its request with a completion. -/
theorem marked_step (h : Once d k es s) (hs : step d s e = some s') (r : ReqId) (o : Outcome)
    (hmem : .request r (.execute o) ∈ es ++ [e]) (hslot : d.slot r = some k) :
    (s'.reqs r).completion ≠ none := by
  rcases List.mem_append.mp hmem with hold | hnew
  · have hc := h.marked r o hold hslot
    rw [(told_step h.sound hs hslot).2 hc]
    exact hc
  · rw [List.mem_singleton] at hnew
    subst hnew
    have hkey := idempotencyKey_ne_empty hslot
    rcases step_cases hs with ⟨r', act, T', l', heq, hm, rfl⟩ | ⟨now, heq, _⟩
    · cases heq
      cases hm with
      | executed => simp [Local.executed, if_neg hkey]
    · cases heq

/-- A request that executes was told to, and so was every request that has
    executed. There is only one such request, and it executes once. -/
theorem executed_step (h : Once d k es s) (hs : step d s e = some s') :
    executions d k (es ++ [e]) ≤ 1 := by
  have hcount : executions d k (es ++ [e]) =
      executions d k es + if isExecution d k e then 1 else 0 := by
    simp [executions]
  have hle := h.executed
  by_cases he : isExecution d k e = true
  · rw [if_pos he] at hcount
    rcases isExecution_eq_true.mp he with ⟨r, o, rfl, hslot⟩
    rcases step_cases hs with ⟨r', act, T', l', heq, hm, _⟩ | ⟨now, heq, _⟩
    · cases heq
      cases hm with
      | executed o hphase =>
        have hcoh := h.sound.coherent r k hslot
        simp only [Coherent, hphase] at hcoh
        -- An earlier execution would be by a request that was told to execute,
        -- which is this one, and this one has not executed yet.
        have hzero : executions d k es = 0 := by
          refine List.countP_eq_zero.mpr (fun e₁ hmem he₁ => ?_)
          rcases isExecution_eq_true.mp he₁ with ⟨r₁, o₁, rfl, hslot₁⟩
          have hc₁ := h.marked r₁ o₁ hmem hslot₁
          rcases Option.ne_none_iff_exists'.mp hc₁ with ⟨c₁, hsome⟩
          have hf₁ := (h.sound.coherent r₁ k hslot₁).fresh_of_completion c₁ hsome
          have hsame := fresh_unique h.reserved r r₁ hslot hslot₁ hcoh.1 hf₁
          exact hc₁ (hsame ▸ hcoh.2)
        omega
    · cases heq
  · rw [if_neg he] at hcount
    omega

/-- One step keeps the whole invariant. -/
theorem once_step {s' : Gateway} (hrun : run (step d) initial es = some s) (h : Once d k es s)
    (hg : NoExpiry d k s e) (hs : step d s e = some s') : Once d k (es ++ [e]) s' :=
  { sound := sound_step h.sound hs
    reserved := reserved_step h.sound h.reserved
      (undisturbed_of_noExpiry h.unreclaimed hg) hs
    unreclaimed := unreclaimed_step h.sound h.reserved h.unreclaimed hg hs
    reading := reading_step hrun h hg hs
    told := told_once_step h hs
    executed := executed_step h hs
    marked := marked_step h hs }

/-- The invariant of a run without expiry. -/
theorem once_run (hrun : run (step d) initial es = some s)
    (hexp : Allowed (step d) (NoExpiry d k) initial es) : Once d k es s :=
  Transition.run_trace_invariant (Once d k) once_initial (fun _ _ _ _ => once_step) es s hexp hrun

variable (d k)

/-- In every run in which no row of the slot passes its expiry, at most one
    execution takes place, by the one request that was told to execute. Every
    other request whose database calls do not fail gets the answer the row it
    read calls for. -/
theorem at_most_once_execution (es : List Event) (s : Gateway)
    (hrun : run (step d) initial es = some s)
    (hexp : Allowed (step d) (NoExpiry d k) initial es) :
    executions d k es ≤ 1 ∧
    (∀ r o, .request r (.execute o) ∈ es → d.slot r = some k → (s.reqs r).Fresh) ∧
    (∀ r r', d.slot r = some k → d.slot r' = some k → (s.reqs r).Fresh → (s.reqs r').Fresh →
      r = r') ∧
    (∀ r a, d.slot r = some k → (s.reqs r).begun = some a → a ≠ .ok proceed →
      ¬ DatabaseFailed es r a → Justified d k es s r a) := by
  have h := once_run hrun hexp
  refine ⟨h.executed, fun r o hmem hslot => ?_, fresh_unique h.reserved,
    fun r a hslot hb hfresh hdb => ?_⟩
  · rcases Option.ne_none_iff_exists'.mp (h.marked r o hmem hslot) with ⟨c, hc⟩
    exact (h.sound.coherent r k hslot).fresh_of_completion c hc
  · rcases h.told r a hslot hb with ha | hfail | hj
    · exact absurd ha hfresh
    · exact absurd hfail hdb
    · exact hj

end

/-- Requests with one key: the first, its retries, and from number 8 on another
    body under the same key. -/
def sharedKey : Deployment :=
  { externals := storedExternals
    requests := fun r =>
      { endpoint := .sqlExecute, workspaceID := "w", idempotencyKey := "k"
        requestHash := if r < 8 then "h" else "g", ttl := idempotencyTTL }
    maxResponseBodyBytes := 0 }

/-- A successful call of request `r`. -/
def Event.reply (r : ReqId) (now : Time) : Event :=
  .request r (.call (.ok now))

/-- Request 0 reserves and executes. Request 1 comes while it runs, request 8
    brings another body, and request 2 comes when the result is stored. -/
def sharedKeyRun : List Event :=
  [.request 0 .enter, .reply 0 0, .reply 0 1, .reply 0 2,
    .request 1 .enter, .reply 1 3, .reply 1 4, .reply 1 5, .reply 1 6,
    .request 0 (.execute (.sql (.error (.other "boom")))),
    .request 8 .enter, .reply 8 7, .reply 8 8, .reply 8 9, .reply 8 10,
    .reply 0 11,
    .request 2 .enter, .reply 2 12, .reply 2 13, .reply 2 14, .reply 2 15]

/-- Its answers are an execution, a refusal for each reason, and a replay, and
    each has its reason in the run. -/
theorem at_most_once_shared_key :
    ∃ s, run (step sharedKey) initial sharedKeyRun = some s ∧
      (s.reqs 0).Fresh ∧ executions sharedKey (0, "k") sharedKeyRun ≤ 1 ∧
      Justified sharedKey (0, "k") sharedKeyRun s 1 (.error .inProgress) ∧
      Justified sharedKey (0, "k") sharedKeyRun s 8 (.error .conflict) ∧
      ∃ ir, ir.replay = true ∧ Justified sharedKey (0, "k") sharedKeyRun s 2 (.ok ir) := by
  have h := at_most_once_execution sharedKey (0, "k") sharedKeyRun _ rfl (by decide)
  refine ⟨_, rfl, rfl, h.1, h.2.2.2 1 _ rfl rfl (by decide) ?_, h.2.2.2 8 _ rfl rfl (by decide) ?_,
    _, ?_, h.2.2.2 2 _ rfl rfl ?_ ?_⟩
  · rintro ⟨e, he, _⟩
    exact absurd he (by simp)
  · rintro ⟨e, he, _⟩
    exact absurd he (by simp)
  · rfl
  · intro hproceed
    cases hproceed
  · rintro ⟨e, he, _⟩
    cases he

end CoopDB
