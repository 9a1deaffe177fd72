import CoopDB.Core.Delivery
import CoopDB.Theory.Idempotency.AtMostOnce

/-!
# What the Gateway Commits for a Key

The gateway's half of the delivery of offline writes. A commit happens in the
execution of a request that was told to execute, and at most one request of a slot is
(`Once`). What has to be added is that this request does not come back to its
execution, also not after a panic or a crash that left open whether the statement was
committed.

A success is answered by a request that has executed without an error, or it is
a replay of what the one executor passed to `Complete`, and then the executor
did. A request whose workspace id does not parse has no slot.

## Main definitions

* `Undoubled`: What is known about the commits for a slot.
* `NeverStarted`: A request that has not got past the top of its handler.

## Theorems

* `finishSQL_reply`: The answer of the SQL handler goes with its completion.
* `execute_ok_iff_committed`: `Execute` returns without an error exactly if it committed.
* `undoubled_step`, `neverStarted_step`: A step keeps the two.
* `success_was_committed`: A success is of a committed statement.
-/

namespace CoopDB

theorem utf8_append (a b : String) : utf8 (a ++ b) = utf8 a ++ utf8 b := by
  simp [utf8]

/-- What the SQL handler sends goes with what it passes to `Complete`. -/
theorem finishSQL_reply (maxResponseBodyBytes : Int) (result : Except Failure Response) :
    (finishSQL maxResponseBodyBytes result).1 =
      (finishSQL maxResponseBodyBytes result).2.reply := by
  cases result with
  | error => simp [finishSQL, problemReply, Completion.reply, utf8_append]
  | ok =>
    simp only [finishSQL]
    split
    · simp [problemReply, Completion.reply, utf8_append]
    · simp only [Completion.reply, if_true]

/-- A completion below 300 is that of an execution without an error. -/
theorem finishSQL_status {maxResponseBodyBytes : Int} {result : Except Failure Response}
    (h : (finishSQL maxResponseBodyBytes result).2.status < 300) :
    ∃ response, result = .ok response := by
  cases result with
  | ok response => exact ⟨response, rfl⟩
  | error e =>
    have hge := mapError_status_ge e
    simp only [finishSQL] at h
    omega

/-- `Execute` returns without an error exactly when its commit did. -/
theorem execute_ok_iff_committed (q : PgQuery) (cfg : ExecutorConfig) (conn : Conn)
    (input : ExecuteInput) (db : DbScript) :
    (∃ response, (execute q cfg conn input db).outcome = .ok response) ↔
      (execute q cfg conn input db).committed = true := by
  unfold execute
  repeat' split
  all_goals simp

theorem Local.Fresh.begun_ne_none (l : Local) (h : l.Fresh) : l.begun ≠ none := by
  rw [show l.begun = some (.ok proceed) from h]
  exact Option.some_ne_none _

section Moves

variable (x : Externals) (q : Request) (limit : Int) (r : ReqId)

/-- A request gets something to complete by an execution and by nothing else. -/
theorem completion_moved {T T' : KeyTable} {l l' : Local} {a : Act}
    (hm : Moved x q limit r T l a T' l') :
    l'.completion = l.completion ∨
      ∃ o, a = .execute o ∧ l'.completion = some (o.completion limit) := by
  cases hm with
  | entered =>
    refine .inl ?_
    unfold Local.enter
    split
    · rfl
    · split <;> rfl
  | selected k now row =>
    refine .inl ?_
    cases judge x row q.requestHash now <;> rfl
  | executed o =>
    unfold Local.executed
    split
    · exact .inl rfl
    · exact .inr ⟨o, rfl, rfl⟩
  | _ => exact .inl rfl

/-- A request that was told to execute and is past it does not come back. -/
theorem past_execution_moved {T T' : KeyTable} {l l' : Local} {a : Act} (h : Coherent l)
    (hf : l.Fresh) (hpast : l.phase ≠ .execute) (hm : Moved x q limit r T l a T' l') :
    l'.phase ≠ .execute := by
  -- The request has left the store behind.
  have hearly : ¬ (l.phase.inStore = true ∨ l.phase = .arrive) :=
    fun hp => hf.begun_ne_none l (h.early hp).1
  cases hm with
  | entered hphase => exact absurd (.inr hphase) hearly
  | insertCommitted now hphase => exact absurd (.inl (by rw [hphase]; rfl)) hearly
  | commitLost e hphase =>
    rcases hphase with hphase | hphase <;> exact absurd (.inl (by rw [hphase]; rfl)) hearly
  | missed k now _ hphase | selected k now row _ hphase | answered reply T' b a hphase =>
    exact absurd (.inl (by rw [hphase]; rfl)) hearly
  | failed e hphase => exact absurd (.inl hphase) hearly
  | executed o hphase => exact absurd hphase hpast
  | cancelled => exact hpast
  | _ => simp [Local.to]

end Moves

section Commits

variable (d : Deployment) (k : Slot)

/-- What is known about the requests of a slot whose statements were committed:
    they were told to execute and are past it, there is at most one, and every
    request with a success to report is among them. -/
structure Undoubled (s : Gateway) (commits : List ReqId) : Prop where
  past : ∀ r ∈ commits, d.slot r = some k → (s.reqs r).Fresh ∧ (s.reqs r).phase ≠ .execute
  once : commits.countP (fun r => decide (d.slot r = some k)) ≤ 1
  committed : ∀ r c, d.slot r = some k → (s.reqs r).completion = some c → c.status < 300 →
    r ∈ commits

theorem undoubled_initial : Undoubled d k initial [] where
  past _ hr := absurd hr List.not_mem_nil
  once := Nat.zero_le 1
  committed _ _ _ hc := nomatch hc

variable (s s' : Gateway) (e : Event)

variable {d s'}

/-- A commit ends the execution of its request. -/
theorem commit_ends_execution (hp : commitPossible s e true = true) (hs : step d s e = some s') :
    ∃ r, e.request? = some r ∧ (s.reqs r).phase = .execute ∧ (s'.reqs r).phase ≠ .execute := by
  rcases step_cases hs with ⟨r, a, T', l', rfl, hm, rfl⟩ | ⟨now, rfl, rfl⟩
  · refine ⟨r, rfl, ?_⟩
    simp only [Function.update_self]
    cases hm with
    | executed o hphase =>
      refine ⟨hphase, ?_⟩
      unfold Local.executed
      split <;> simp only [Local.to, ne_eq, reduceCtorEq, not_false_eq_true]
    | panicked | crashed =>
      simp only [commitPossible, Bool.not_true, Bool.false_or, decide_eq_true_eq] at hp
      exact ⟨hp, by simp [Local.to]⟩
    | _ => exact absurd hp (by simp [commitPossible])
  · exact absurd hp (by simp [commitPossible])

/-- A request that was told to execute stays told. -/
theorem fresh_step (hsound : Sound d s) (hs : step d s e = some s') {r : ReqId}
    (hslot : d.slot r = some k) (hf : (s.reqs r).Fresh) : (s'.reqs r).Fresh :=
  ((told_step hsound hs hslot).1 (hf.begun_ne_none _)).trans hf

/-- A request past its execution stays past it. -/
theorem past_step (hsound : Sound d s) (hs : step d s e = some s') (r : ReqId)
    (hslot : d.slot r = some k) (hf : (s.reqs r).Fresh) (hpast : (s.reqs r).phase ≠ .execute) :
    (s'.reqs r).Fresh ∧ (s'.reqs r).phase ≠ .execute := by
  refine ⟨fresh_step k s e hsound hs hslot hf, ?_⟩
  rcases request_cases hs r with hsame | ⟨a, T', l', rfl, hm, rfl⟩
  · rw [hsame]
    exact hpast
  · simp only [Function.update_self]
    exact past_execution_moved _ _ _ _ (hsound.coherent r k hslot) hf hpast hm

/-- A success that is new comes from an execution that has just committed. -/
theorem new_success_commits {committed : Bool} (hp : commitPossible s e committed = true)
    (hs : step d s e = some s') {r : ReqId} (hsql : (d.requests r).endpoint = .sqlExecute)
    {c : Completion} (hc : (s'.reqs r).completion = some c) (hstatus : c.status < 300) :
    (s.reqs r).completion = some c ∨ (committed = true ∧ e.request? = some r) := by
  have hdef := hs
  rcases request_cases hs r with hsame | ⟨a, T', l', rfl, hm, rfl⟩
  · exact .inl (hsame ▸ hc)
  · simp only [Function.update_self] at hc
    rcases completion_moved _ _ _ _ hm with hsame | ⟨o, rfl, hnew⟩
    · exact .inl (hsame ▸ hc)
    · -- The endpoint says which outcome it is, and the status how it went.
      rw [hnew, Option.some.injEq] at hc
      subst hc
      have hend : o.endpoint = .sqlExecute := by
        simp only [step, move, Option.map_eq_some_iff, Option.ite_none_right_eq_some] at hdef
        rcases hdef with ⟨_, ⟨⟨_, hend⟩, _⟩, _⟩
        exact hend.trans hsql
      cases o with
      | rpc => cases hend
      | sql result =>
        rcases finishSQL_status hstatus with ⟨response, rfl⟩
        exact .inr ⟨hp, rfl⟩

/-- While a request of the slot is at its execution, none of them has
    committed. -/
theorem Undoubled.none_before {commits : List ReqId} (h : Undoubled d k s commits) {es : List Event}
    (honce : Once d k es s) {r : ReqId} (hslot : d.slot r = some k) (hf : (s.reqs r).Fresh)
    (hphase : (s.reqs r).phase = .execute) :
    commits.countP (fun r => decide (d.slot r = some k)) = 0 := by
  refine List.countP_eq_zero.mpr (fun r' hr' hdec => ?_)
  have hslot' := of_decide_eq_true hdec
  rcases h.past r' hr' hslot' with ⟨hf', hpast⟩
  -- It would be the same request, and that one is only now at its execution.
  have hsame := fresh_unique honce.reserved r' r hslot' hslot hf' hf
  exact hpast (hsame ▸ hphase)

/-- A step of the gateway, with what it commits. -/
theorem undoubled_step {es : List Event} {s s' : Gateway} {e : Event} {committed : Bool}
    {commits : List ReqId} (honce : Once d k es s)
    (hsql : ∀ r, d.slot r = some k → (d.requests r).endpoint = .sqlExecute)
    (h : Undoubled d k s commits) (hp : commitPossible s e committed = true)
    (hs : step d s e = some s') :
    Undoubled d k s' (commits ++ if committed then e.request?.toList else []) := by
  have hold : ∀ r ∈ commits, d.slot r = some k →
      (s'.reqs r).Fresh ∧ (s'.reqs r).phase ≠ .execute := by
    intro r hr hslot
    exact past_step k s e honce.sound hs r hslot (h.past r hr hslot).1 (h.past r hr hslot).2
  have hsuccess : ∀ r c, d.slot r = some k → (s'.reqs r).completion = some c → c.status < 300 →
      r ∈ commits ++ if committed then e.request?.toList else [] := by
    intro r c hslot hc hstatus
    rcases new_success_commits s e hp hs (hsql r hslot) hc hstatus with
      hc | ⟨rfl, he⟩
    · exact List.mem_append_left _ (h.committed r c hslot hc hstatus)
    · refine List.mem_append_right _ ?_
      rw [if_pos rfl, he]
      exact List.mem_singleton_self r
  cases committed with
  | false =>
    simp only [Bool.false_eq_true, if_false, List.append_nil] at hsuccess ⊢
    exact ⟨hold, h.once, hsuccess⟩
  | true =>
    rcases commit_ends_execution s e hp hs with ⟨r₀, he, hphase, hpast⟩
    simp only [if_true, he, Option.toList_some] at hsuccess ⊢
    -- The committing request was told to execute.
    have hfresh : d.slot r₀ = some k → (s.reqs r₀).Fresh := by
      intro hslot
      have hcoh := honce.sound.coherent r₀ k hslot
      simp only [Coherent, hphase] at hcoh
      exact hcoh.1
    refine ⟨fun r hr hslot => ?_, ?_, hsuccess⟩
    · rcases List.mem_append.mp hr with hr | hr
      · exact hold r hr hslot
      · rw [List.mem_singleton.mp hr] at hslot ⊢
        exact ⟨fresh_step k s e honce.sound hs hslot (hfresh hslot), hpast⟩
    · rw [List.countP_append, List.countP_singleton]
      by_cases hslot : d.slot r₀ = some k
      · rw [h.none_before k s honce hslot (hfresh hslot) hphase]
        split <;> omega
      · rw [if_neg (by simpa using hslot)]
        exact h.once

end Commits

section Answers

variable (d : Deployment) (k : Slot)

variable {d}

/-- A success that a handler of the slot reports is of a committed statement. -/
theorem success_was_committed {es : List Event} {s : Gateway} {commits : List ReqId}
    (honce : Once d k es s) (h : Undoubled d k s commits) {r : ReqId} (hslot : d.slot r = some k)
    {reply : HttpReply} (hreply : (s.reqs r).reply = some reply) (hstatus : reply.status < 300) :
    ∃ r' ∈ commits, d.slot r' = some k := by
  unfold Local.reply at hreply
  split at hreply
  case h_1 c hc =>
    -- It has executed.
    cases hreply
    refine ⟨r, h.committed r c hslot hc ?_, hslot⟩
    unfold Completion.reply at hstatus
    split at hstatus <;> exact hstatus
  case h_2 ir _ hbegun =>
    -- It replays what the executor passed on.
    simp only [Option.ite_none_right_eq_some, Option.some.injEq] at hreply
    rcases hreply with ⟨hreplay, rfl⟩
    rcases honce.told r _ hslot hbegun with ha | ⟨e, ha, _⟩ | hjust
    · rw [Except.ok.injEq] at ha
      exact absurd hreplay (by rw [ha]; exact Bool.false_ne_true)
    · cases ha
    · rcases hjust with ⟨_, _, _, _, row, _, _, _, _, hrow, hconflict, hprogress, hserved⟩
      have hhash : row.requestHash = (d.requests r).requestHash := by
        by_contra hne
        exact nomatch (hconflict.mpr hne)
      have hstate : row.state ≠ .pending := by
        intro hpending
        exact nomatch (hprogress.mpr ⟨hhash, hpending⟩)
      rcases hserved hhash hstate with ⟨_, c, hc, ha⟩
      rw [Except.ok.injEq] at ha
      rw [ha] at hstatus
      exact ⟨row.id, h.committed row.id c hrow hc hstatus, hrow⟩
  case h_3 => cases hreply

/-- A keyed request without a slot, because its workspace id does not parse,
    gets no further than the top of its handler. -/
structure NeverStarted (l : Local) : Prop where
  phase : l.phase = .arrive ∨ l.phase.over = true
  completion : l.completion = none
  begun : ∀ ir, l.begun ≠ some (.ok ir)

theorem neverStarted_move {x : Externals} {q : Request} {limit : Int} {r : ReqId}
    (hkey : q.idempotencyKey ≠ "") (hslot : q.slot x = none) {T T' : KeyTable} {l l' : Local}
    {a : Act} (h : NeverStarted l) (hm : move x q limit r T l a = some (T', l')) :
    NeverStarted l' := by
  cases a with
  | enter =>
    simp only [move, Option.ite_none_right_eq_some, Option.some.injEq, Prod.mk.injEq] at hm
    rcases hm with ⟨_, _, rfl⟩
    simp only [Request.slot, if_neg hkey] at hslot
    unfold Local.enter
    rw [if_neg hkey]
    cases hws : x.uuidParse q.workspaceID with
    | ok => rw [hws] at hslot; exact absurd hslot (by simp)
    | error => exact ⟨.inr rfl, h.completion, fun ir hir => absurd hir (by simp [Local.answer])⟩
  | reject =>
    simp only [move, Option.ite_none_right_eq_some, Option.some.injEq, Prod.mk.injEq] at hm
    rcases hm with ⟨_, _, rfl⟩
    exact ⟨.inr rfl, h.completion, h.begun⟩
  | call =>
    -- The store is not asked.
    simp only [move, hslot, reduceCtorEq] at hm
  | execute =>
    simp only [move, Option.ite_none_right_eq_some] at hm
    rcases h.phase with hp | hp
    · cases hp.symm.trans hm.1.1
    · rw [hm.1.1] at hp
      exact absurd hp Bool.false_ne_true
  | panic =>
    simp only [move, Option.ite_none_left_eq_some, Option.some.injEq, Prod.mk.injEq] at hm
    rcases hm with ⟨_, _, rfl⟩
    exact ⟨.inr rfl, h.completion, h.begun⟩
  | cancel =>
    simp only [move, Option.some.injEq, Prod.mk.injEq] at hm
    rcases hm with ⟨_, rfl⟩
    exact ⟨h.phase, h.completion, h.begun⟩
  | crash =>
    simp only [move, Option.ite_none_left_eq_some, Option.some.injEq, Prod.mk.injEq] at hm
    rcases hm with ⟨_, _, rfl⟩
    exact ⟨.inr rfl, h.completion, h.begun⟩

/-- A step of the gateway. -/
theorem neverStarted_step {s s' : Gateway} {e : Event} (hs : step d s e = some s') {r : ReqId}
    (hkey : (d.requests r).idempotencyKey ≠ "") (hslot : d.slot r = none)
    (h : NeverStarted (s.reqs r)) : NeverStarted (s'.reqs r) := by
  cases e with
  | purge =>
    simp only [step, Option.some.injEq] at hs
    rw [← hs]
    exact h
  | request r' a =>
    simp only [step, Option.map_eq_some_iff] at hs
    rcases hs with ⟨⟨T', l'⟩, hm, rfl⟩
    by_cases hr : r = r'
    · subst hr
      simp only [Function.update_self]
      exact neverStarted_move hkey hslot h hm
    · simp only [Function.update_of_ne hr]
      exact h

/-- Such a request has no success to report. -/
theorem NeverStarted.reply_eq_none (l : Local) (h : NeverStarted l) : l.reply = none := by
  unfold Local.reply
  rw [h.completion]
  cases hb : l.begun with
  | none => rfl
  | some b =>
    cases b with
    | error => rfl
    | ok ir => exact absurd hb (h.begun ir)

end Answers

end CoopDB
