import CoopDB.Theory.Queue.Conservation

/-!
# The Order of Replay

`flush` asks for the items that are due, in the order of their ids. An item
that ran into a network failure is put off by its backoff and is not due, so
the next call of `flush` passes it over and sends later items first.

Replay is first in, first out where none is waiting. Then the batch is the front of
`pending`, and it stays so while its items are sent: each leaves `pending` as it leaves
the batch, and new items queue up behind. The item handed to the sender is then the
first one pending.

## Main definitions

* `SentInOrder`: All earlier items are acknowledged or dead when an item is sent.
* `NoneWaiting`: Where a batch is asked for, every pending item that was enqueued before
  an item of the batch is due as well.
* `Leading`: The batch is the front of `pending`.

## Theorems

* `accounted_step`: An enqueued item is pending or settled.
* `leading_step`: The front stays the front.
* `replay_in_order`: A run in which none is waiting sends every item in order.
* `backoff_lets_later_item_pass`: Two writes that are sent out of order.
-/

namespace CoopDB

open Transition (run Allowed)

/-- The item was acknowledged or moved to `dead`, where its payload is kept. -/
def Settled (q : QueueState) (a : QueueItem) : Prop :=
  (∃ b ∈ q.acked, b.id = a.id) ∨
    (∃ b ∈ q.buried, b.id = a.id ∧ ∃ d ∈ q.dead, d.payload = b.payload)

/-- If the step is an answer of the sender, every item enqueued before the item
    it was given is settled. -/
def SentInOrder (q : QueueState) (e : QueueEvent) : Prop :=
  ∀ answer now delay item rest sent failed, e = .send answer now delay →
    q.flushing = some ⟨item :: rest, sent, failed⟩ →
    ∀ a ∈ q.enqueued, a.id < item.id → Settled q a

/-- When a batch is asked for, every pending item that was enqueued before one
    of the batch is due. -/
def NoneWaiting (q : QueueState) : QueueEvent → Prop
  | .nextDue now => ∀ b ∈ q.nextDue now flushLimit, ∀ a ∈ q.pending, a.id < b.id →
      a.nextAttemptAt ≤ now
  | _ => True

instance (q : QueueState) (e : QueueEvent) : Decidable (NoneWaiting q e) :=
  match e with
  | .nextDue now => inferInstanceAs (Decidable (∀ b ∈ q.nextDue now flushLimit, ∀ a ∈ q.pending,
      a.id < b.id → a.nextAttemptAt ≤ now))
  | .enqueue _ _ | .flush | .send _ _ _ => isTrue trivial

/-- Every enqueued item is pending or settled. -/
def Accounted (q : QueueState) : Prop :=
  ∀ a ∈ q.enqueued, (∃ b ∈ q.pending, b.id = a.id) ∨ Settled q a

/-- What is left of a batch is the front of `pending`. -/
def Leading (q : QueueState) : Prop :=
  ∀ f, q.flushing = some f → ∀ b ∈ f.batch, ∀ a ∈ q.pending, a.id < b.id → a ∈ f.batch

variable (q q' : QueueState)

/-- An item that leaves `pending` for a place of record is settled. -/
theorem accounted_removed (h : Accounted q) {item : QueueItem}
    (henqueued : q'.enqueued = q.enqueued)
    (hpending : q'.pending = KeyedList.remove QueueItem.id q.pending item.id)
    (hkeep : ∀ a, Settled q a → Settled q' a) (hitem : Settled q' item) : Accounted q' := by
  intro a ha
  rw [henqueued] at ha
  rcases h a ha with ⟨b, hb, hid⟩ | hsettled
  · by_cases hsame : b.id = item.id
    · refine .inr ?_
      -- It is the item itself.
      rcases hitem with ⟨c, hc, hcid⟩ | ⟨c, hc, hcid, hdead⟩
      · exact .inl ⟨c, hc, hcid.trans (hsame.symm.trans hid)⟩
      · exact .inr ⟨c, hc, hcid.trans (hsame.symm.trans hid), hdead⟩
    · refine .inl ⟨b, ?_, hid⟩
      rw [hpending]
      exact (KeyedList.mem_remove _ _ _ b).mpr ⟨hb, hsame⟩
  · exact .inr (hkeep a hsettled)

/-- A step loses sight of no item. -/
theorem accounted_step (e : QueueEvent) (q' : QueueState) (h : Accounted q)
    (hs : q.step e = some q') : Accounted q' := by
  -- An item leaves `pending` only when it is acknowledged or buried.
  have hlast : ∀ (l : List QueueItem) (item : QueueItem), ∃ b ∈ l ++ [item], b.id = item.id :=
    fun l item => ⟨item, List.mem_append_right l (List.mem_singleton_self item), rfl⟩
  have hburied : ∀ (item : QueueItem) (err : String) (f : Option Flush) (ret : List (Nat × Nat)),
      Accounted { q.bury item err with flushing := f, returned := ret } := by
    intro item err f ret
    refine accounted_removed q _ h rfl rfl (fun a ha => ?_) (.inr ?_)
    · rcases ha with ha | ⟨b, hb, hid, d, hd, hpayload⟩
      · exact .inl ha
      · exact .inr ⟨b, List.mem_append_left _ hb, hid, d, List.mem_append_left _ hd, hpayload⟩
    · exact ⟨item, List.mem_append_right _ (List.mem_singleton_self _), rfl, _,
        List.mem_append_right _ (List.mem_singleton_self _), rfl⟩
  cases queueStep_moved q hs with
  | enqueued p now hroom item =>
    intro a ha
    rcases List.mem_append.mp ha with ha | ha
    · rcases h a ha with ⟨b, hb, hid⟩ | hsettled
      · exact .inl ⟨b, List.mem_append_left _ hb, hid⟩
      · exact .inr hsettled
    · rw [List.mem_singleton.mp ha]
      exact .inl (hlast q.pending item)
  | acked now delay item =>
    refine accounted_removed q _ h rfl rfl (fun a ha => ?_) (.inl (hlast q.acked item))
    rcases ha with ⟨b, hb, hid⟩ | ha
    · exact .inl ⟨b, List.mem_append_left _ hb, hid⟩
    · exact .inr ha
  | backedOff =>
    intro a ha
    rcases h a ha with ⟨b, hb, hid⟩ | hsettled
    · refine .inl ⟨_, (KeyedList.mem_modify _ _ _ _ _).mpr ⟨b, hb, rfl⟩, ?_⟩
      split
      · exact hid
      · exact hid
    · exact .inr hsettled
  | exhausted err now delay item => exact hburied item err.message none _
  | buried err now delay item => exact hburied item err.message _ q.returned
  | _ => exact h

/-- Where nobody is kept waiting, the batch is the front of `pending`. -/
theorem nextDue_leading (h : Orderly q) {now : Time} (hg : NoneWaiting q (.nextDue now))
    {b : QueueItem} (hb : b ∈ q.nextDue now flushLimit) {a : QueueItem} (ha : a ∈ q.pending)
    (hlt : a.id < b.id) : a ∈ q.nextDue now flushLimit := by
  have hdue : a ∈ q.pending.filter (fun i => decide (i.nextAttemptAt ≤ now)) :=
    List.mem_filter.mpr ⟨ha, decide_eq_true (hg b hb a ha hlt)⟩
  have hordered : KeyedList.Ordered QueueItem.id
      (q.pending.filter (fun i => decide (i.nextAttemptAt ≤ now))) := h.ordered.filter _
  exact KeyedList.mem_take_of_lt QueueItem.id _ hordered hdue hb hlt

/-- The front is still the front when its first item is gone. -/
theorem leading_removed (hl : Leading q) {item : QueueItem} {rest : List QueueItem}
    {sent failed : Nat} (hflush : q.flushing = some ⟨item :: rest, sent, failed⟩)
    (hpending : q'.pending = KeyedList.remove QueueItem.id q.pending item.id)
    (hrest : ∀ f, q'.flushing = some f → f.batch = rest) : Leading q' := by
  intro f hf b hb a ha hlt
  rw [hrest f hf] at hb ⊢
  rw [hpending, KeyedList.mem_remove] at ha
  rcases List.mem_cons.mp (hl _ hflush b (List.mem_cons_of_mem item hb) a ha.1 hlt) with rfl | hmem
  · exact absurd rfl ha.2
  · exact hmem

/-- A step that keeps nobody waiting keeps the batch in front. -/
theorem leading_step (e : QueueEvent) (q' : QueueState) (h : Orderly q) (hl : Leading q)
    (hg : NoneWaiting q e) (hs : q.step e = some q') : Leading q' := by
  have hidle : ∀ q : QueueState, q.flushing = none → Leading q := by
    intro q hnone f hf
    rw [hnone] at hf
    cases hf
  cases queueStep_moved q hs with
  | refused => exact hl
  | enqueued p now hroom item hitem =>
    intro f hf b hb a ha hlt
    rcases List.mem_append.mp ha with ha | ha
    · exact hl f hf b hb a ha hlt
    · -- A new item comes after all others.
      rw [List.mem_singleton.mp ha, hitem] at hlt
      have hold := h.fresh b ((h.batch f hf).subset hb)
      exact absurd hlt (Nat.lt_asymm hold)
  | began =>
    intro f hf b hb
    rw [← Option.some.inj hf] at hb
    exact absurd hb List.not_mem_nil
  | drained => exact hidle _ rfl
  | batched now =>
    intro f hf b hb a ha hlt
    rw [← Option.some.inj hf] at hb ⊢
    exact nextDue_leading q h hg hb ha hlt
  | acked now delay item rest sent failed hflush =>
    exact leading_removed q _ hl hflush rfl (fun f hf => by rw [← Option.some.inj hf])
  | backedOff | exhausted => exact hidle _ rfl
  | buried err now delay item rest sent failed hflush =>
    exact leading_removed q _ hl hflush rfl (fun f hf => by rw [← Option.some.inj hf])
  | escaped => exact hidle _ rfl

/-- With the batch in front, the item handed to the sender is the first one
    pending, so all earlier ones are settled. -/
theorem sentInOrder_of_leading (e : QueueEvent) (h : Orderly q) (ha : Accounted q)
    (hl : Leading q) :
    SentInOrder q e := by
  intro answer now delay item rest sent failed _ hflush a henqueued hlt
  rcases ha a henqueued with ⟨b, hb, hid⟩ | hsettled
  · rw [← hid] at hlt
    have hmem := hl _ hflush item List.mem_cons_self b hb hlt
    have hbatch : KeyedList.Ordered QueueItem.id (item :: rest) :=
      h.ordered.sublist (h.batch _ hflush)
    -- In the batch nothing comes before its first item.
    rcases List.mem_cons.mp hmem with rfl | hrest
    · exact absurd hlt (Nat.lt_irrefl _)
    · exact absurd hlt (Nat.lt_asymm ((List.pairwise_cons.mp hbatch).1 b hrest))
  · exact hsettled

/-- In every run in which a batch is only asked for while no earlier item is
    kept waiting, whenever an item is handed to the sender all items enqueued
    before it have been acknowledged or moved to `dead`. -/
theorem replay_in_order (maxSize : Int) (es : List QueueEvent)
    (hnone : Allowed QueueState.step NoneWaiting (QueueState.empty maxSize) es) :
    Allowed QueueState.step SentInOrder (QueueState.empty maxSize) es := by
  refine Transition.allowed_of_invariant
    (fun q => Orderly q ∧ Accounted q ∧ Leading q) (fun q e q' hI hg hs => ?_)
    (fun q e hI _ => sentInOrder_of_leading q e hI.1 hI.2.1 hI.2.2) _ ?_ hnone
  · exact ⟨orderly_step q hI.1 hs, accounted_step q e q' hI.2.1 hs,
      leading_step q e q' hI.1 hI.2.2 hg hs⟩
  · refine ⟨orderly_empty maxSize, fun a ha => absurd ha List.not_mem_nil, fun f hf => ?_⟩
    cases hf

/-- Three writes that are all due are sent in order. -/
theorem three_writes_in_order :
    Allowed QueueState.step SentInOrder (QueueState.empty 10) threeWrites :=
  replay_in_order 10 threeWrites (by decide)

/-- Two writes. The first runs into a network failure and is put off, and the
    next call of `flush` sends the second. -/
def overtaken : List QueueEvent :=
  [.enqueue (insertPayload "a") 0, .enqueue (insertPayload "b") 0, .flush, .nextDue 1,
    .send (.error (.api (apiError .network))) 1 2000000000, .flush, .nextDue 2]

/-- The second write is handed to the sender while the first is pending. -/
theorem backoff_lets_later_item_pass :
    ¬ Allowed QueueState.step SentInOrder (QueueState.empty 10)
      (overtaken ++ [.send (.ok ()) 2 0]) := by
  intro h
  have hend := (Transition.allowed_append.mp h).2 _ rfl
  have hsettled := hend.1 (.ok ()) 2 0 _ _ _ _ rfl rfl _ List.mem_cons_self (by decide)
  rcases hsettled with ⟨b, hb, _⟩ | ⟨b, hb, _⟩
  · exact absurd hb List.not_mem_nil
  · exact absurd hb List.not_mem_nil

end CoopDB
