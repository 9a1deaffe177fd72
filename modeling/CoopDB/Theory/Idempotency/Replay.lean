import CoopDB.Theory.Delivery.Commits
import CoopDB.Theory.Idempotency.Completion

/-!
# What a Later Request Is Told

One request has executed, and its `Complete` has returned without an error. A
request of the same slot and with the same hash arrives after that, before the
row expires.

`Once` already says what a request was told by the row it read. What has to be
added is which row that was. `CompletedBefore` has the later request at the top
of its handler when the row is complete, so its select comes after that, and
until then the row can only be completed again.

## Main definitions

* `CompletedBefore`: A completion, and a request that arrives after it.
* `HoldsResult`: The slot holds the completed row of a request.

## Theorems

* `holdsResult_step`: A completed row stays.
* `executed_of_completion`: What is passed to `Complete` comes of an execution.
* `replayed_after_complete`: The later request is told to replay, and is given what the
  first one passed to `Complete`.
-/

namespace CoopDB

open Transition (run Allowed)

section

variable (d : Deployment) (k : Slot)

/-- Request `r` has called `Complete` without an error, at a time when request
    `r'` was still to arrive. -/
def CompletedBefore (es : List Event) (r r' : ReqId) : Prop :=
  ∃ pre now post c t t', es = pre ++ .request r (.call (.ok now)) :: post ∧
    run (step d) initial pre = some t ∧ (t.reqs r).phase = .complete c ∧
    step d t (.request r (.call (.ok now))) = some t' ∧ (t'.reqs r').phase = .arrive

/-- The slot holds a row of request `r` with a result in it. -/
def HoldsResult (r : ReqId) (s : Gateway) : Prop :=
  ∃ row, s.table.committed k = some row ∧ row.id = r ∧ row.state ≠ .pending

variable (es : List Event) (s : Gateway) (r : ReqId)

/-- No request comes back to the top of its handler. -/
theorem arrive_step {s' : Gateway} (e : Event) (hs : step d s e = some s') (r : ReqId)
    (h : (s.reqs r).phase ≠ .arrive) : (s'.reqs r).phase ≠ .arrive := by
  rcases request_cases hs r with hsame | ⟨a, T', l', rfl, hm, rfl⟩
  · rw [hsame]
    exact h
  · simp only [Function.update_self]
    have hanswer : ∀ b, ((s.reqs r).answer b).phase ≠ .arrive := by
      intro b
      rcases (s.reqs r).answer_phase b with hb | hb <;> simp [hb]
    cases hm with
    | entered hphase => exact absurd hphase h
    | selected k now row =>
      cases judge d.externals row (d.requests r).requestHash now <;> simp [Local.judged, Local.to]
    | executed =>
      unfold Local.executed
      split <;> simp only [Local.to, ne_eq, reduceCtorEq, not_false_eq_true]
    | cancelled => exact h
    | insertCommitted | commitLost | missed | answered | failed => exact hanswer _
    | _ => simp [Local.to]

/-- Without expiry a completed row stays, for it can only be completed
    again. -/
theorem holdsResult_step (s s' : Gateway) (e : Event) (honce : Once d k es s)
    (hg : NoExpiry d k s e) (hs : step d s e = some s') (h : HoldsResult k r s) :
    HoldsResult k r s' := by
  rcases h with ⟨row, hrow, hid, hstate⟩
  have hund := undisturbed_of_noExpiry honce.unreclaimed hg
  rcases live_row_step honce.sound honce.reserved hund hs hrow not_false with
    hsame | ⟨c, hnew⟩
  · exact ⟨row, hsame, hid, hstate⟩
  · exact ⟨_, hnew, hid, completed_state_ne_pending d c row⟩

/-- The completion itself. Its request was told to execute, so the row is its
    own. -/
theorem holdsResult_complete {s s' : Gateway} {c : Completion} {now : Time} (honce : Once d k es s)
    (hslot : d.slot r = some k) (hphase : (s.reqs r).phase = .complete c)
    (hs : step d s (.request r (.call (.ok now))) = some s') : HoldsResult k r s' := by
  have hcoh := honce.sound.coherent r k hslot
  simp only [Coherent, hphase] at hcoh
  rcases honce.reserved.fresh r hslot hcoh.1 with ⟨row, hrow, _, hid⟩
  exact ⟨_, committed_complete_ok d s s' hslot hphase hrow hs, hid,
    completed_state_ne_pending d c row⟩

/-- The request of a completed row was told to execute. -/
theorem fresh_of_holdsResult (s : Gateway) (honce : Once d k es s) (h : HoldsResult k r s) :
    (s.reqs r).Fresh := by
  rcases h with ⟨row, hrow, rfl, hstate⟩
  have hown := honce.reserved.owned row hrow not_false
  rcases hown.result hstate with ⟨c, hc, _⟩
  exact (honce.sound.coherent row.id k hown.slot).fresh_of_completion c hc

/-- What a request has passed to `Complete` came of an execution. -/
theorem executed_of_completion (hrun : run (step d) initial es = some s) :
    ∀ r c, (s.reqs r).completion = some c →
      ∃ o, .request r (.execute o) ∈ es ∧ c = o.completion d.maxResponseBodyBytes := by
  induction es using List.reverseRecOn generalizing s with
  | nil =>
    intro r c hc
    simp only [run, Option.some.injEq] at hrun
    rw [← hrun] at hc
    cases hc
  | append_singleton es e ih =>
    intro r c hc
    rcases (Transition.run_snoc es e).mp hrun with ⟨t, ht, hs⟩
    have hkeep : (t.reqs r).completion = some c →
        ∃ o, .request r (.execute o) ∈ es ++ [e] ∧ c = o.completion d.maxResponseBodyBytes := by
      intro hc
      rcases ih t ht r c hc with ⟨o, hmem, ho⟩
      exact ⟨o, List.mem_append_left _ hmem, ho⟩
    rcases request_cases hs r with hsame | ⟨a, T', l', rfl, hm, rfl⟩
    · exact hkeep (hsame ▸ hc)
    · simp only [Function.update_self] at hc
      rcases completion_moved _ _ _ _ hm with hsame | ⟨o, rfl, hnew⟩
      · exact hkeep (hsame ▸ hc)
      · rw [hnew, Option.some.injEq] at hc
        exact ⟨o, List.mem_append_right _ (List.mem_singleton_self _), hc.symm⟩

/-- From the completion on, the row stays completed. -/
theorem holdsResult_run {pre post : List Event} {t s : Gateway} {r : ReqId}
    (hpre : run (step d) initial pre = some t) (hpost : run (step d) t post = some s)
    (hexp : Allowed (step d) (NoExpiry d k) initial (pre ++ post)) (h : HoldsResult k r t) :
    HoldsResult k r s := by
  rcases Transition.allowed_append.mp hexp with ⟨hexp₁, hexp₂⟩
  refine (Transition.run_invariant
    (fun u => (∃ es, Once d k es u ∧ run (step d) initial es = some u) ∧ HoldsResult k r u)
    ⟨⟨pre, once_run hpre hexp₁, hpre⟩, h⟩ ?_ (hexp₂ t hpre) hpost).2
  rintro u e u' ⟨⟨es, honce, hes⟩, hset⟩ hg hu
  refine ⟨⟨es ++ [e], once_step hes honce hg hu, ?_⟩,
    holdsResult_step d k es r u u' e honce hg hu hset⟩
  exact (Transition.run_snoc es e).mpr ⟨u, hes, hu⟩

/-- A request that is still to arrive at the end of `pre` takes its select
    after it. -/
theorem select_after_arrival {pre post pre' post' : List Event} {e : Event} {t u : Gateway}
    {r : ReqId} (heq : pre ++ post = pre' ++ e :: post') (ht : run (step d) initial pre = some t)
    (hu : run (step d) initial pre' = some u) (harrive : (t.reqs r).phase = .arrive)
    (hselect : (u.reqs r).phase = .select) :
    ∃ mid, pre' = pre ++ mid ∧ run (step d) t mid = some u := by
  rcases List.append_eq_append_iff.mp heq with ⟨mid, hpre', _⟩ | ⟨mid, hpre, _⟩
  · refine ⟨mid, hpre', ?_⟩
    rw [hpre', Transition.run_append, ht, Option.bind_some] at hu
    exact hu
  · -- Otherwise it would have been past its arrival, and so at the end of `pre`.
    rw [hpre, Transition.run_append, hu, Option.bind_some] at ht
    have hleft : (u.reqs r).phase ≠ .arrive := by
      simp [hselect]
    have hpast := Transition.run_kept (fun s => (s.reqs r).phase ≠ .arrive) hleft
      (fun s e s' h hs => arrive_step d s e hs r h) ht
    exact absurd harrive hpast

/-- A request that arrives after the completion, with the slot and the hash of
    the request that completed, is told to replay what that request passed on,
    unless one of its own calls fails. It does not execute. -/
theorem replayed_after_complete (hrun : run (step d) initial es = some s)
    (hexp : Allowed (step d) (NoExpiry d k) initial es) {r r' : ReqId} {a : Answer}
    (hslot : d.slot r = some k) (hslot' : d.slot r' = some k)
    (hhash : (d.requests r').requestHash = (d.requests r).requestHash)
    (hdone : CompletedBefore d es r r') (hbegun : (s.reqs r').begun = some a)
    (hdb : ¬ DatabaseFailed es r' a) : (s.reqs r).Fresh ∧ (∀ o, .request r' (.execute o) ∉ es) ∧
    ∃ o, .request r (.execute o) ∈ es ∧
      a = .ok { replay := true, statusCode := (o.completion d.maxResponseBodyBytes).status
                body := (o.completion d.maxResponseBodyBytes).body } := by
  have honce := once_run hrun hexp
  rcases hdone with ⟨pre, now, post, c, t, t', rfl, ht, hphase, ht', harrive⟩
  have hcons : pre ++ .request r (.call (.ok now)) :: post =
      (pre ++ [.request r (.call (.ok now))]) ++ post := List.append_cons ..
  have hpre' := (Transition.run_snoc pre _).mpr ⟨t, ht, ht'⟩
  have honcet := once_run ht (Transition.allowed_append.mp hexp).1
  have hset := holdsResult_complete d k pre r honcet hslot hphase ht'
  -- The later request was not told to execute: it would be the first one, which
  -- is past its arrival.
  have hreplay : a ≠ .ok proceed := by
    intro ha
    have hrest : run (step d) t' post = some s := by
      rw [hcons, Transition.run_append, hpre', Option.bind_some] at hrun
      exact hrun
    have hfresh := fresh_of_holdsResult d k _ r s honce
      (holdsResult_run d k hpre' hrest (hcons ▸ hexp) hset)
    have hfresh' : (s.reqs r').Fresh := by rw [Local.Fresh, hbegun, ha]
    have hsame := fresh_unique honce.reserved r r' hslot hslot' hfresh hfresh'
    subst hsame
    have hpast := arrive_step d t _ ht' r (by simp [hphase])
    exact hpast harrive
  rcases honce.told r' a hslot' hbegun with ha | hfail | hjust
  · exact absurd ha hreplay
  · exact absurd hfail hdb
  · rcases hjust with ⟨pre₂, now₂, post₂, u, row, heq, hu, hselect, hrow, hrowslot, hans⟩
    rcases select_after_arrival d (hcons ▸ heq) hpre' hu harrive hselect with ⟨mid, hmid, hrunmid⟩
    rw [heq, hmid] at hexp
    have hexpmid := (Transition.allowed_append.mp hexp).1
    rcases holdsResult_run d k hpre' hrunmid hexpmid hset with ⟨row', hrow', hid, hstate⟩
    rw [hrow, Option.some.injEq] at hrow'
    subst hrow'
    -- The row it read is the completed one, and the hashes agree.
    have honceu := once_run (by rw [← hmid]; exact hu) hexpmid
    have hown := honceu.reserved.owned row hrow not_false
    have hsamehash : row.requestHash = (d.requests r').requestHash := by
      rw [hown.hash, hid, hhash]
    rcases hans.2.2 hsamehash hstate with ⟨hfresh, c', hc', ha⟩
    rw [hid] at hfresh hc'
    refine ⟨hfresh, fun o hmem => ?_, ?_⟩
    · rcases Option.ne_none_iff_exists'.mp (honce.marked r' o hmem hslot') with ⟨c₂, hc₂⟩
      have hf := (honce.sound.coherent r' k hslot').fresh_of_completion c₂ hc₂
      rw [Local.Fresh, hbegun, Option.some.injEq] at hf
      exact hreplay hf
    · rcases executed_of_completion d _ s hrun r c' hc' with ⟨o, hmem, rfl⟩
      exact ⟨o, hmem, ha⟩

end

end CoopDB
