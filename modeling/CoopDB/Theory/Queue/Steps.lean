import CoopDB.Core.Queue
import CoopDB.Lib.Transition

/-!
# What One Step of the Queue Can Do

The inversion of `QueueState.step`, and the invariant of every run.

`Orderly` is what every later result rests on. The rows of `pending` are in the
order of their ids and below the next one. What is left of a batch is still in
`pending`, in the same order and unchanged, since only the call of `flush` that
took the batch touches its items. And no pending item has used up its attempts.

## Main definitions

* `QueueMoved`: The transitions: an enqueue that is refused or accepted, the start of a
  `flush`, the two answers to its request for a batch, and the five things that can become
  of an item that was handed to the sender.
* `Orderly`: The invariant.
* `Recorded`: An item keeps its id and its payload all the way.

## Theorems

* `queueStep_moved`: `QueueMoved` is everything a step does.
* `orderly_empty`, `orderly_step`, `recorded_empty`, `recorded_step`: The two hold in
  every run.
* `Orderly.head_mem`, `Orderly.next_mem`: The next item of a batch is pending.
-/

namespace CoopDB

/-- The transitions of the queue. -/
inductive QueueMoved (q : QueueState) : QueueEvent → QueueState → Prop
  | refused (p : Payload) (now : Time) (hfull : (q.pending.length : Int) ≥ q.maxSize) :
      QueueMoved q (.enqueue p now) q
  | enqueued (p : Payload) (now : Time) (hroom : ¬ (q.pending.length : Int) ≥ q.maxSize)
      (item : QueueItem) (hitem : item = ⟨q.nextID, p, 0, none, now⟩) :
      QueueMoved q (.enqueue p now)
        { q with pending := q.pending ++ [item], nextID := q.nextID + 1
                 enqueued := q.enqueued ++ [item] }
  | began (hidle : q.flushing = none) :
      QueueMoved q .flush { q with flushing := some ⟨[], 0, 0⟩ }
  | drained (now : Time) (sent failed : Nat) (hflush : q.flushing = some ⟨[], sent, failed⟩)
      (hdue : q.nextDue now flushLimit = []) :
      QueueMoved q (.nextDue now)
        { q with flushing := none, returned := q.returned ++ [(sent, failed)] }
  | batched (now : Time) (sent failed : Nat) (hflush : q.flushing = some ⟨[], sent, failed⟩)
      (hdue : q.nextDue now flushLimit ≠ []) :
      QueueMoved q (.nextDue now)
        { q with flushing := some ⟨q.nextDue now flushLimit, sent, failed⟩ }
  | acked (now delay : Time) (item : QueueItem) (rest : List QueueItem) (sent failed : Nat)
      (hflush : q.flushing = some ⟨item :: rest, sent, failed⟩) :
      QueueMoved q (.send (.ok ()) now delay)
        { q.ack item.id with
          flushing := some ⟨rest, sent + 1, failed⟩, acked := q.acked ++ [item] }
  | backedOff (e : ApiError) (now delay : Time) (item : QueueItem) (rest : List QueueItem)
      (sent failed : Nat) (hflush : q.flushing = some ⟨item :: rest, sent, failed⟩)
      (hkind : e.kind = .network) (hlow : item.attempts + 1 < queueMaxAttempts)
      (hdelay : 0 ≤ delay ∧ delay ≤ backoffUpper (item.attempts + 1)) :
      QueueMoved q (.send (.error (.api e)) now delay)
        { q with
          pending := KeyedList.modify QueueItem.id q.pending item.id (fun i =>
            { i with attempts := item.attempts + 1, lastError := some e.message
                     nextAttemptAt := now + delay })
          flushing := none, returned := q.returned ++ [(sent, failed + 1)] }
  | exhausted (e : ApiError) (now delay : Time) (item : QueueItem) (rest : List QueueItem)
      (sent failed : Nat) (hflush : q.flushing = some ⟨item :: rest, sent, failed⟩)
      (hkind : e.kind = .network) (hmax : item.attempts + 1 ≥ queueMaxAttempts) :
      QueueMoved q (.send (.error (.api e)) now delay)
        { q.bury item e.message with
          flushing := none, returned := q.returned ++ [(sent, failed + 1)] }
  | buried (e : ApiError) (now delay : Time) (item : QueueItem) (rest : List QueueItem)
      (sent failed : Nat) (hflush : q.flushing = some ⟨item :: rest, sent, failed⟩)
      (hkind : e.kind ≠ .network) :
      QueueMoved q (.send (.error (.api e)) now delay)
        { q.bury item e.message with flushing := some ⟨rest, sent, failed + 1⟩ }
  | escaped (text : String) (now delay : Time) (item : QueueItem) (rest : List QueueItem)
      (sent failed : Nat) (hflush : q.flushing = some ⟨item :: rest, sent, failed⟩) :
      QueueMoved q (.send (.error (.other text)) now delay) { q with flushing := none }

variable (q : QueueState) (e : QueueEvent) (q' : QueueState)

variable {q'}

/-- An answer of the sender is one of the transitions. -/
theorem queueSend_moved {answer : Except Raised Unit} {now delay : Time}
    (h : q.step (.send answer now delay) = some q') : QueueMoved q (.send answer now delay) q' := by
  simp only [QueueState.step] at h
  split at h
  case h_2 => cases h
  case h_1 item rest sent failed hflush =>
    cases answer with
    | ok =>
      cases h
      exact .acked now delay item rest sent failed hflush
    | error r =>
      cases r with
      | other text =>
        cases h
        exact .escaped text now delay item rest sent failed hflush
      | api e =>
        by_cases hkind : e.kind = .network
        · simp only [hkind, if_true, Option.ite_none_right_eq_some, Option.some.injEq] at h
          rcases h with ⟨hdelay, rfl⟩
          by_cases hmax : item.attempts + 1 ≥ queueMaxAttempts
          · simp only [QueueState.fail, if_pos hmax]
            exact .exhausted e now delay item rest sent failed hflush hkind hmax
          · simp only [QueueState.fail, if_neg hmax]
            exact .backedOff e now delay item rest sent failed hflush hkind
              (Nat.not_le.mp hmax) hdelay
        · simp only [hkind, if_false, Option.some.injEq] at h
          subst h
          exact .buried e now delay item rest sent failed hflush hkind

/-- `QueueMoved` is everything a step does. -/
theorem queueStep_moved {e : QueueEvent} (h : q.step e = some q') : QueueMoved q e q' := by
  cases e with
  | enqueue p now =>
    simp only [QueueState.step, QueueState.enqueue] at h
    by_cases hfull : (q.pending.length : Int) ≥ q.maxSize
    · simp only [if_pos hfull, Option.some.injEq] at h
      subst h
      exact .refused p now hfull
    · simp only [if_neg hfull, Option.some.injEq] at h
      subst h
      exact .enqueued p now hfull _ rfl
  | flush =>
    simp only [QueueState.step] at h
    split at h
    case h_1 hidle =>
      cases h
      exact .began hidle
    case h_2 => cases h
  | nextDue now =>
    simp only [QueueState.step] at h
    split at h
    case h_2 => cases h
    case h_1 sent failed hflush =>
      split at h
      case h_1 hdue =>
        cases h
        exact .drained now sent failed hflush hdue
      case h_2 hdue =>
        cases h
        exact .batched now sent failed hflush hdue
  | send answer now delay => exact queueSend_moved q h

/-- The invariant of every run. -/
structure Orderly (q : QueueState) : Prop where
  ordered : KeyedList.Ordered QueueItem.id q.pending
  fresh : ∀ i ∈ q.pending, i.id < q.nextID
  batch : ∀ f, q.flushing = some f → f.batch.Sublist q.pending
  attempts : ∀ i ∈ q.pending, i.attempts < queueMaxAttempts

theorem orderly_empty (maxSize : Int) : Orderly (QueueState.empty maxSize) where
  ordered := List.Pairwise.nil
  fresh _ hi := absurd hi List.not_mem_nil
  batch _ hf := nomatch hf
  attempts _ hi := absurd hi List.not_mem_nil

theorem nextDue_sublist (now : Time) (limit : Nat) : (q.nextDue now limit).Sublist q.pending :=
  (List.take_sublist limit _).trans List.filter_sublist

/-- The next item of a batch is pending, as it was read. -/
theorem Orderly.head_mem (h : Orderly q) {item : QueueItem} {rest : List QueueItem}
    {sent failed : Nat} (hflush : q.flushing = some ⟨item :: rest, sent, failed⟩) :
    item ∈ q.pending :=
  (h.batch _ hflush).subset List.mem_cons_self

/-- Taking the next item of the batch out of `pending` leaves the queue in
    order. -/
theorem Orderly.removed (h : Orderly q) {item : QueueItem} {rest : List QueueItem}
    {sent failed : Nat} (hflush : q.flushing = some ⟨item :: rest, sent, failed⟩)
    (hpending : q'.pending = KeyedList.remove QueueItem.id q.pending item.id)
    (hnext : q'.nextID = q.nextID) (hrest : ∀ f, q'.flushing = some f → f.batch = rest) :
    Orderly q' := by
  have hmem : ∀ i ∈ q'.pending, i ∈ q.pending := by
    intro i hi
    rw [hpending] at hi
    exact ((KeyedList.mem_remove _ _ _ i).mp hi).1
  refine ⟨?_, fun i hi => ?_, fun f hf => ?_, fun i hi => h.attempts i (hmem i hi)⟩
  · rw [hpending]
    exact KeyedList.ordered_remove _ _ h.ordered item.id
  · rw [hnext]
    exact h.fresh i (hmem i hi)
  · rw [hrest f hf, hpending]
    exact KeyedList.sublist_remove_head _ _ h.ordered (h.batch _ hflush)

variable {e}

/-- One step keeps the queue in order. -/
theorem orderly_step (h : Orderly q) (hs : q.step e = some q') : Orderly q' := by
  have hnone : ∀ f : Flush, (none : Option Flush) = some f → ∀ P : Prop, P :=
    fun f hf => nomatch hf
  cases queueStep_moved q hs with
  | refused => exact h
  | enqueued p now hroom item hitem =>
    have hid : item.id = q.nextID := by rw [hitem]
    refine ⟨KeyedList.ordered_append _ _ h.ordered item fun i hi => ?_, fun i hi => ?_,
      fun f hf => (h.batch f hf).trans (List.sublist_append_left _ _), fun i hi => ?_⟩
    · rw [hid]
      exact h.fresh i hi
    · rcases List.mem_append.mp hi with hi | hi
      · exact Nat.lt_succ_of_lt (h.fresh i hi)
      · rw [List.mem_singleton.mp hi, hid]
        exact Nat.lt_succ_self _
    · rcases List.mem_append.mp hi with hi | hi
      · exact h.attempts i hi
      · rw [List.mem_singleton.mp hi, hitem]
        exact Nat.zero_lt_succ _
  | began =>
    refine ⟨h.ordered, h.fresh, fun f hf => ?_, h.attempts⟩
    rw [← Option.some.inj hf]
    exact List.nil_sublist _
  | drained => exact ⟨h.ordered, h.fresh, fun f hf => hnone f hf _, h.attempts⟩
  | batched now =>
    refine ⟨h.ordered, h.fresh, fun f hf => ?_, h.attempts⟩
    rw [← Option.some.inj hf]
    exact nextDue_sublist q now flushLimit
  | acked now delay item rest sent failed hflush =>
    exact h.removed q hflush rfl rfl (fun f hf => by rw [← Option.some.inj hf])
  | backedOff err now delay item rest sent failed hflush hkind hlow =>
    -- The row is changed in place, under the same id.
    refine ⟨KeyedList.ordered_modify _ _ h.ordered item.id _ (fun _ => rfl), fun i hi => ?_,
      fun f hf => hnone f hf _, fun i hi => ?_⟩
    · rcases (KeyedList.mem_modify _ _ _ _ i).mp hi with ⟨j, hj, rfl⟩
      split
      · exact h.fresh j hj
      · exact h.fresh j hj
    · rcases (KeyedList.mem_modify _ _ _ _ i).mp hi with ⟨j, hj, rfl⟩
      split
      · exact hlow
      · exact h.attempts j hj
  | exhausted err now delay item rest sent failed hflush =>
    exact h.removed q hflush rfl rfl (fun f hf => hnone f hf _)
  | buried err now delay item rest sent failed hflush =>
    exact h.removed q hflush rfl rfl (fun f hf => by rw [← Option.some.inj hf])
  | escaped => exact ⟨h.ordered, h.fresh, fun f hf => hnone f hf _, h.attempts⟩

/-- During a call of `flush` the next item is the head of its batch. -/
theorem QueueState.next_of_flushing {item : QueueItem} {rest : List QueueItem} {sent failed : Nat}
    (hflush : q.flushing = some ⟨item :: rest, sent, failed⟩) : q.next = some item := by
  rw [QueueState.next, hflush]
  rfl

theorem Orderly.next_mem (h : Orderly q) (item : QueueItem) (hnext : q.next = some item) :
    item ∈ q.pending := by
  rcases Option.bind_eq_some_iff.mp hnext with ⟨f, hf, hhead⟩
  exact (h.batch f hf).subset (List.mem_of_head? hhead)

/-- The record has an item with this id and payload. -/
def QueueState.Knows (q : QueueState) (i : QueueItem) : Prop :=
  ∃ j ∈ q.enqueued, j.id = i.id ∧ j.payload = i.payload

/-- The items that were enqueued are in the order of their ids, and everything
    that is pending or acknowledged is one of them. -/
structure Recorded (q : QueueState) : Prop where
  ordered : KeyedList.Ordered QueueItem.id q.enqueued
  fresh : ∀ i ∈ q.enqueued, i.id < q.nextID
  pending : ∀ i ∈ q.pending, q.Knows i
  acked : ∀ i ∈ q.acked, q.Knows i

theorem recorded_empty (maxSize : Int) : Recorded (QueueState.empty maxSize) where
  ordered := List.Pairwise.nil
  fresh _ hi := absurd hi List.not_mem_nil
  pending _ hi := absurd hi List.not_mem_nil
  acked _ hi := absurd hi List.not_mem_nil

variable {q}

/-- One step keeps the record. -/
theorem recorded_step (ho : Orderly q) (h : Recorded q) (hs : q.step e = some q') :
    Recorded q' := by
  -- The record grows with `enqueue` and is not touched by any other step.
  have hremoved : ∀ id, ∀ i ∈ KeyedList.remove QueueItem.id q.pending id, q.Knows i :=
    fun id i hi => h.pending i ((KeyedList.mem_remove _ _ _ i).mp hi).1
  cases queueStep_moved q hs with
  | enqueued p now hroom item hitem =>
    have hid : item.id = q.nextID := by rw [hitem]
    have hold : ∀ i, q.Knows i → ∃ j ∈ q.enqueued ++ [item], j.id = i.id ∧
        j.payload = i.payload := by
      rintro i ⟨j, hj, hsame⟩
      exact ⟨j, List.mem_append_left _ hj, hsame⟩
    refine ⟨KeyedList.ordered_append _ _ h.ordered item fun i hi => ?_, fun i hi => ?_,
      fun i hi => ?_, fun i hi => hold i (h.acked i hi)⟩
    · rw [hid]
      exact h.fresh i hi
    · rcases List.mem_append.mp hi with hi | hi
      · exact Nat.lt_succ_of_lt (h.fresh i hi)
      · rw [List.mem_singleton.mp hi, hid]
        exact Nat.lt_succ_self _
    · rcases List.mem_append.mp hi with hi | hi
      · exact hold i (h.pending i hi)
      · exact ⟨item, List.mem_append_right _ (List.mem_singleton_self item),
          by rw [List.mem_singleton.mp hi], by rw [List.mem_singleton.mp hi]⟩
  | acked now delay item rest sent failed hflush =>
    refine ⟨h.ordered, h.fresh, hremoved item.id, fun i hi => ?_⟩
    rcases List.mem_append.mp hi with hi | hi
    · exact h.acked i hi
    · rw [List.mem_singleton.mp hi]
      exact h.pending item (ho.head_mem q hflush)
  | backedOff =>
    refine ⟨h.ordered, h.fresh, fun i hi => ?_, h.acked⟩
    rcases (KeyedList.mem_modify _ _ _ _ i).mp hi with ⟨j, hj, rfl⟩
    split
    · exact h.pending j hj
    · exact h.pending j hj
  | exhausted err now delay item | buried err now delay item =>
    exact ⟨h.ordered, h.fresh, hremoved item.id, h.acked⟩
  | _ => exact ⟨h.ordered, h.fresh, h.pending, h.acked⟩

/-- What was enqueued stays on the record. -/
theorem enqueued_subset_step (hs : q.step e = some q') : q.enqueued ⊆ q'.enqueued := by
  cases queueStep_moved q hs with
  | enqueued => exact List.subset_append_left _ _
  | _ => exact List.Subset.refl _

end CoopDB
