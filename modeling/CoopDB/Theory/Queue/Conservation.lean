import CoopDB.Theory.Queue.Steps

/-!
# Nothing Is Lost and Nothing Is Duplicated

The account of the offline queue over any run.

The account is a permutation of lists, so an item that is enqueued twice
counts twice. A step moves at most one item, the next one of the batch, and
`Orderly` says that this item is pending under its own id and no other row is
(`KeyedList.perm_remove`).

A call of `flush` is the part of a run from one `flush` event up to the next.
For termination its steps are counted. A request for a batch either
ends the call or finds an item, and an answer of the sender ends the call or
takes an item out of `pending`, so while nobody enqueues a call has at most
`2 n + 1` steps left where `n` items are pending.

## Main definitions

* `Conserved`: Every enqueued item is in one place: acknowledged, pending or dead.
* `Counted`: In a call `sent` is the growth of the acknowledged items, and `failed` the
  number of answers of the sender that raised an error of the package.

## Theorems

* `conserved_step`, `counted_step`: The two are kept.
* `flush_steps_bounded`, `flush_not_stuck`: A call of `flush` ends.
* `queue_conserves_items`: All of this in every run, no pending item has used up its
  attempts, and a refused enqueue changes nothing.
-/

namespace CoopDB

open Transition (run Allowed)

/-- Every item that was enqueued is acknowledged, pending or dead, once. -/
def Conserved (q : QueueState) : Prop :=
  (q.enqueued.map QueueItem.payload).Perm
    (q.acked.map QueueItem.payload ++
      (q.pending.map QueueItem.payload ++ q.dead.map DeadItem.payload))

variable (q : QueueState) (call : List QueueEvent) (e : QueueEvent) (q' : QueueState)

/-- The payloads of the pending items, with the next item of the batch first. -/
theorem pending_payloads_perm (h : Orderly q) {item : QueueItem} {rest : List QueueItem}
    {sent failed : Nat} (hflush : q.flushing = some ⟨item :: rest, sent, failed⟩) :
    (q.pending.map QueueItem.payload).Perm
      (item.payload ::
        (KeyedList.remove QueueItem.id q.pending item.id).map QueueItem.payload) := by
  have hmem := h.head_mem q hflush
  exact (KeyedList.perm_remove QueueItem.id q.pending h.ordered hmem).map QueueItem.payload

/-- An item moved to `dead` is still accounted for. -/
theorem conserved_bury (h : Orderly q) (hc : Conserved q) {item : QueueItem} {rest : List QueueItem}
    {sent failed : Nat} {err : String} (hflush : q.flushing = some ⟨item :: rest, sent, failed⟩)
    (hpending : q'.pending = (q.bury item err).pending) (hdead : q'.dead = (q.bury item err).dead)
    (hacked : q'.acked = q.acked) (henqueued : q'.enqueued = q.enqueued) : Conserved q' := by
  have hmove := pending_payloads_perm q h hflush
  unfold Conserved
  rw [henqueued, hacked, hpending, hdead]
  refine hc.trans (List.Perm.append_left _ ?_)
  simp only [QueueState.bury, List.map_append, List.map_cons, List.map_nil]
  calc q.pending.map QueueItem.payload ++ q.dead.map DeadItem.payload
    _ |>.Perm (item.payload :: (KeyedList.remove QueueItem.id q.pending item.id).map
          QueueItem.payload ++ q.dead.map DeadItem.payload) := hmove.append_right _
    _ |>.Perm ((KeyedList.remove QueueItem.id q.pending item.id).map QueueItem.payload ++
          (q.dead.map DeadItem.payload ++ [item.payload])) := by
        rw [List.cons_append, ← List.append_assoc]
        exact (List.perm_append_singleton item.payload _).symm

/-- One step keeps the account. -/
theorem conserved_step (h : Orderly q) (hc : Conserved q) (hs : q.step e = some q') :
    Conserved q' := by
  cases queueStep_moved q hs with
  | enqueued =>
    unfold Conserved at hc ⊢
    simp only [List.map_append, List.map_cons, List.map_nil]
    refine (hc.append_right _).trans ?_
    rw [List.append_assoc, List.append_assoc, List.append_assoc]
    exact List.Perm.append_left _ (List.Perm.append_left _ List.perm_append_comm)
  | acked now delay item rest sent failed hflush =>
    have hmove := pending_payloads_perm q h hflush
    unfold Conserved at hc ⊢
    simp only [QueueState.ack, List.map_append, List.map_cons, List.map_nil]
    refine hc.trans ?_
    rw [List.append_assoc]
    exact List.Perm.append_left _ (hmove.append_right _)
  | backedOff err now delay item =>
    -- The payload of the row is not among the columns that change.
    have hsame : (KeyedList.modify QueueItem.id q.pending item.id (fun i =>
        { i with attempts := item.attempts + 1, lastError := some err.message
                 nextAttemptAt := now + delay })).map QueueItem.payload
        = q.pending.map QueueItem.payload := by
      unfold KeyedList.modify
      rw [List.map_map]
      refine List.map_congr_left fun i _ => ?_
      simp only [Function.comp_apply]
      split <;> rfl
    unfold Conserved at hc ⊢
    simp only [hsame]
    exact hc
  | exhausted err now delay item rest sent failed hflush
  | buried err now delay item rest sent failed hflush =>
    exact conserved_bury q _ h hc hflush rfl rfl rfl rfl
  | _ => exact hc

/-- The event begins a call of `flush`. -/
def QueueEvent.isFlush : QueueEvent → Bool
  | .flush => true
  | _ => false

/-- The event is a step of a call of `flush`. -/
def QueueEvent.inFlush : QueueEvent → Bool
  | .nextDue _ | .send _ _ _ => true
  | _ => false

/-- The sender raised an error of the package. -/
def QueueEvent.raises : QueueEvent → Bool
  | .send (.error (.api _)) _ _ => true
  | _ => false

/-- The items acknowledged since `q₀`, and how many they are. -/
def AckedSince (q₀ q : QueueState) (n : Nat) : Prop :=
  ∃ items, q.acked = q₀.acked ++ items ∧ items.length = n

/-- The counters of the call of `flush` that began in `q₀`, or its result if it
    has returned one, agree with the steps taken since. -/
def Counted (q₀ : QueueState) (call : List QueueEvent) (q : QueueState) : Prop :=
  match q.flushing with
  | some f => q.returned = q₀.returned ∧ AckedSince q₀ q f.sent ∧
      f.failed = call.countP QueueEvent.raises
  | none => q.returned = q₀.returned ∨
      ∃ sent failed, q.returned = q₀.returned ++ [(sent, failed)] ∧ AckedSince q₀ q sent ∧
        failed = call.countP QueueEvent.raises

/-- Only an answer that raises an error of the package counts as failed. -/
theorem countP_raises_of_not (h : e.raises = false) :
    call.countP QueueEvent.raises = (call ++ [e]).countP QueueEvent.raises := by
  rw [List.countP_append, List.countP_singleton, h]
  rfl

theorem countP_raises_succ (h : e.raises = true) :
    call.countP QueueEvent.raises + 1 = (call ++ [e]).countP QueueEvent.raises := by
  rw [List.countP_append, List.countP_singleton, h]
  rfl

/-- Within a call a step keeps the counters. -/
theorem counted_step {q₀ : QueueState} {call : List QueueEvent} {q : QueueState} {e : QueueEvent}
    {q' : QueueState} (h : Counted q₀ call q) (he : e.isFlush = false) (hs : q.step e = some q') :
    Counted q₀ (call ++ [e]) q' := by
  have hquiet := countP_raises_of_not call e
  have hloud := countP_raises_succ call e
  cases queueStep_moved q hs with
  | refused | enqueued =>
    unfold Counted at h ⊢
    rw [← hquiet rfl]
    exact h
  | began => cases he
  | drained now sent failed hflush =>
    simp only [Counted, hflush] at h
    exact .inr ⟨sent, failed, by rw [h.1], h.2.1, h.2.2.trans (hquiet rfl)⟩
  | batched now sent failed hflush =>
    simp only [Counted, hflush] at h
    exact ⟨h.1, h.2.1, h.2.2.trans (hquiet rfl)⟩
  | acked now delay item rest sent failed hflush =>
    simp only [Counted, hflush] at h
    rcases h with ⟨hreturned, ⟨items, hitems, hlength⟩, hfailed⟩
    refine ⟨hreturned, ⟨items ++ [item], ?_, ?_⟩, hfailed.trans (hquiet rfl)⟩
    · simp [hitems]
    · simp [hlength]
  | backedOff err now delay item rest sent failed hflush
  | exhausted err now delay item rest sent failed hflush =>
    simp only [Counted, hflush] at h
    exact .inr ⟨sent, failed + 1, by rw [h.1], h.2.1, by rw [h.2.2, hloud rfl]⟩
  | buried err now delay item rest sent failed hflush =>
    simp only [Counted, hflush] at h
    exact ⟨h.1, h.2.1, by rw [h.2.2, hloud rfl]⟩
  | escaped text now delay item rest sent failed hflush =>
    -- The exception leaves `flush`, which returns nothing.
    simp only [Counted, hflush] at h
    exact .inl h.1

/-- The counters of a call agree with its run. -/
theorem counted_call {q₀ q : QueueState} {call : List QueueEvent}
    (hcall : ∀ e ∈ call, e.isFlush = false)
    (hrun : run QueueState.step q₀ (.flush :: call) = some q) : Counted q₀ call q := by
  rcases Transition.run_cons hrun with ⟨q₁, hs, hrun⟩
  have hinit : Counted q₀ [] q₁ := by
    cases queueStep_moved q₀ hs with
    | began => exact ⟨rfl, ⟨[], (List.append_nil _).symm, rfl⟩, rfl⟩
  exact Transition.run_trace_invariant (Counted q₀) hinit
    (fun es q e q' _ hI he hs => counted_step hI he hs) call q
    (Transition.allowed_of_forall hcall q₁) hrun

/-- The number of steps a call of `flush` can still take while nobody
    enqueues. -/
def stepsLeft (q : QueueState) : Nat :=
  match q.flushing with
  | none => 0
  | some f => 2 * q.pending.length + if f.batch.isEmpty then 1 else 0

/-- Every step of a call brings its end closer. -/
theorem stepsLeft_step (h : Orderly q) (he : e.inFlush = true) (hs : q.step e = some q') :
    stepsLeft q' < stepsLeft q := by
  -- An item that was taken out of `pending` makes up for a request for a batch.
  have hremoved : ∀ (item : QueueItem) (rest : List QueueItem) (sent failed : Nat),
      q.flushing = some ⟨item :: rest, sent, failed⟩ →
      (KeyedList.remove QueueItem.id q.pending item.id).length + 1 = q.pending.length := by
    intro item rest sent failed hflush
    have hperm := KeyedList.perm_remove QueueItem.id q.pending h.ordered (h.head_mem q hflush)
    rw [hperm.length_eq, List.length_cons]
  cases queueStep_moved q hs with
  | refused | enqueued | began => exact absurd he (by simp [QueueEvent.inFlush])
  | drained now sent failed hflush => simp [stepsLeft, hflush]
  | batched now sent failed hflush hdue => simp [stepsLeft, hflush, hdue]
  | acked now delay item rest sent failed hflush =>
    have hlen := hremoved item rest sent failed hflush
    simp only [stepsLeft, hflush, QueueState.ack, List.isEmpty_cons, Bool.false_eq_true, if_false]
    split <;> omega
  | buried err now delay item rest sent failed hflush =>
    have hlen := hremoved item rest sent failed hflush
    simp only [stepsLeft, hflush, QueueState.bury, List.isEmpty_cons, Bool.false_eq_true, if_false]
    split <;> omega
  | backedOff err now delay item rest sent failed hflush
  | exhausted err now delay item rest sent failed hflush
  | escaped text now delay item rest sent failed hflush =>
    have hlen := hremoved item rest sent failed hflush
    simp only [stepsLeft, hflush, List.isEmpty_cons, Bool.false_eq_true, if_false]
    omega

/-- While nobody enqueues, a call takes no more steps than it has left. -/
theorem flush_steps_bounded (es : List QueueEvent) (hes : ∀ e ∈ es, e.inFlush = true) :
    ∀ q q', Orderly q → run QueueState.step q es = some q' →
      es.length + stepsLeft q' ≤ stepsLeft q := by
  induction es with
  | nil =>
    intro q q' _ hrun
    simp only [run, Option.some.injEq] at hrun
    rw [hrun, List.length_nil, Nat.zero_add]
  | cons e es ih =>
    intro q q' h hrun
    rw [List.forall_mem_cons] at hes
    rcases Transition.run_cons hrun with ⟨q₁, hs, hrun⟩
    have hless := stepsLeft_step q e q₁ h hes.1 hs
    have hrest := ih hes.2 q₁ q' (orderly_step q h hs) hrun
    rw [List.length_cons]
    omega

/-- A call of `flush` that is not over can take its next step, whatever the
    clock, the sender and the jitter say. -/
def GoesOn (q : QueueState) : Prop :=
  ∀ f, q.flushing = some f →
    (f.batch = [] → ∀ now, ∃ q', q.step (.nextDue now) = some q') ∧
    (∀ item rest, f.batch = item :: rest → ∀ answer now delay, 0 ≤ delay →
      delay ≤ backoffUpper (item.attempts + 1) → ∃ q', q.step (.send answer now delay) = some q')

theorem flush_not_stuck : GoesOn q := by
  rintro ⟨batch, sent, failed⟩ hflush
  constructor
  · rintro rfl now
    simp only [QueueState.step, hflush]
    cases q.nextDue now flushLimit with
    | nil | cons => exact ⟨_, rfl⟩
  · rintro item rest rfl answer now delay hlow hhigh
    simp only [QueueState.step, hflush]
    cases answer with
    | ok => exact ⟨_, rfl⟩
    | error r =>
      cases r with
      | other => exact ⟨_, rfl⟩
      | api e =>
        by_cases hkind : e.kind = .network
        · simp only [hkind, if_true, hlow, hhigh, and_self]
          exact ⟨_, rfl⟩
        · simp only [hkind, if_false]
          exact ⟨_, rfl⟩

/-- What holds of a call of `flush` from any state of a run: what it returns is
    the number of items it acknowledged and the number of errors of the package
    the sender raised, and while nobody enqueues it ends after at most `2 n + 1`
    steps, where `n` items are pending. -/
structure FlushCall (q : QueueState) : Prop where
  counts : ∀ call q', (∀ e ∈ call, e.isFlush = false) →
    run QueueState.step q (.flush :: call) = some q' →
    ∀ sent failed, q'.returned = q.returned ++ [(sent, failed)] →
      AckedSince q q' sent ∧ failed = call.countP QueueEvent.raises
  ends : ∀ call q', (∀ e ∈ call, e.inFlush = true) →
    run QueueState.step q (.flush :: call) = some q' →
      call.length ≤ 2 * q.pending.length + 1 ∧ GoesOn q'

theorem flushCall (h : Orderly q) : FlushCall q := by
  refine ⟨fun call q' hcall hrun sent failed hret => ?_, fun call q' hcall hrun => ?_⟩
  · have hcounted := counted_call hcall hrun
    unfold Counted at hcounted
    -- A result longer by one entry is not the old one.
    have hlonger : q'.returned ≠ q.returned := by
      intro heq
      rw [hret] at heq
      exact absurd (congrArg List.length heq) (by simp)
    split at hcounted
    case h_1 => exact absurd hcounted.1 hlonger
    case h_2 =>
      rcases hcounted with hsame | ⟨sent', failed', hret', hacked, hfailed⟩
      · exact absurd hsame hlonger
      · have hlast := List.append_cancel_left (hret.symm.trans hret')
        simp only [List.cons.injEq, Prod.mk.injEq, and_true] at hlast
        rw [hlast.1, hlast.2]
        exact ⟨hacked, hfailed⟩
  · refine ⟨?_, flush_not_stuck q'⟩
    rcases Transition.run_cons hrun with ⟨q₁, hs, hrun⟩
    have hbound := flush_steps_bounded call hcall q₁ q' (orderly_step q h hs) hrun
    cases queueStep_moved q hs with
    | began =>
      simp only [stepsLeft, List.isEmpty_nil, if_true] at hbound
      omega

/-- Over every run of the queue, whatever the limit, the clock, the jitter and
    the sender: the enqueued items are the acknowledged, pending and dead ones
    together, every call of `flush` counts right and ends, no pending item has
    used up its attempts, and a refused enqueue changes nothing. -/
theorem queue_conserves_items (maxSize : Int) (es : List QueueEvent) (q : QueueState)
    (hrun : run QueueState.step (QueueState.empty maxSize) es = some q) :
    (q.enqueued.map QueueItem.payload).Perm
      (q.acked.map QueueItem.payload ++
        (q.pending.map QueueItem.payload ++ q.dead.map DeadItem.payload)) ∧
    FlushCall q ∧
    (∀ i ∈ q.pending, i.attempts < queueMaxAttempts) ∧
    (∀ p now message, q.enqueue p now = .error message → q.step (.enqueue p now) = some q) := by
  have h := Transition.run_kept (fun q => Orderly q ∧ Conserved q)
    ⟨orderly_empty maxSize, List.Perm.refl _⟩
    (fun q e q' hI hs => ⟨orderly_step q hI.1 hs, conserved_step q e q' hI.1 hI.2 hs⟩) hrun
  refine ⟨h.2, flushCall q h.1, h.1.attempts, fun p now message hfull => ?_⟩
  simp only [QueueState.step, hfull]

/-- A write under the given key. -/
def insertPayload (key : String) : Payload :=
  { sql := "INSERT INTO notes VALUES ($1)", params := [.string key], idempotencyKey := key }

/-- An error of the given kind. -/
def apiError (kind : Kind) : ApiError :=
  { kind := kind, message := "refused", status := none, problem := [] }

/-- Three writes: the first is acknowledged, the second refused for good, and
    the third runs into a network failure. -/
def threeWrites : List QueueEvent :=
  [.enqueue (insertPayload "a") 0, .enqueue (insertPayload "b") 0, .enqueue (insertPayload "c") 0,
    .flush, .nextDue 1, .send (.ok ()) 1 0, .send (.error (.api (apiError .validation))) 1 0,
    .send (.error (.api (apiError .network))) 1 2000000000]

/-- They are acknowledged, dead and pending, one each. -/
theorem three_writes_conserved :
    ∃ q, run QueueState.step (QueueState.empty 10) threeWrites = some q ∧
      q.acked.length = 1 ∧ q.dead.length = 1 ∧ q.pending.length = 1 ∧
      (q.enqueued.map QueueItem.payload).Perm
        (q.acked.map QueueItem.payload ++
          (q.pending.map QueueItem.payload ++ q.dead.map DeadItem.payload)) :=
  ⟨_, rfl, rfl, rfl, rfl, (queue_conserves_items 10 threeWrites _ rfl).1⟩

end CoopDB
