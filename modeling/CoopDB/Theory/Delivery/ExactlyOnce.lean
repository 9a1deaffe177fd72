import CoopDB.Theory.Client
import CoopDB.Theory.Delivery.Commits
import CoopDB.Theory.Queue.Conservation
import Mathlib.Data.List.Nodup

/-!
# Offline Writes Are Delivered Exactly Once

The queue, the client and the gateway together. The gateway's half is `Undoubled`. For
the rest an acknowledgement is followed back to its request. The client acknowledges
on a reply below 300 to its last attempt, and a reply below 300 is the handler's own.
The attempt was posted for the item at the head of the batch, which stays there until
the call of `execute` is over.

An item is known by its id, and its requests by the pairs recorded when they
were posted. That the keys are distinct is what lets a commit in the item's slot
be taken for one of its own.

## Main definitions

* `Channel.slot`: The slot of an item's requests.
* `DeliveryMoved`: The transitions of the system.
* `Booked`: The invariant of the queue and the requests.
* `Followed`: What is known about the acknowledgement of an item.

## Theorems

* `delivery_moved`: `DeliveryMoved` is everything a step does.
* `booked_step`, `followed_step`: The invariants are kept.
* `offline_write_exactly_once`: While no row of an item expires and nobody else uses the
  keys, an item is committed at most once, and an acknowledged one exactly once.
* `lost_answer_exactly_once`: A run in which the first answer is lost.
-/

namespace CoopDB

open Transition (run Allowed)

/-- The slot of an item's requests. -/
def Channel.slot (c : Channel) (p : Payload) : Option Slot :=
  (c.request p "").slot c.deployment.externals

/-- The gateway's part of an event. -/
def DeliveryEvent.server? : DeliveryEvent → Option Event
  | .server e _ => some e
  | _ => none

/-- The events of the gateway in a run. -/
def serverEvents (es : List DeliveryEvent) : List Event :=
  es.filterMap DeliveryEvent.server?

section

variable (c : Channel)

/-- An item with a key posts it, whatever `execute` would make up. -/
theorem request_slot {p : Payload} (hkey : p.idempotencyKey ≠ "") (fresh : String) :
    (c.request p fresh).slot c.deployment.externals = c.slot p ∧
      (c.request p fresh).idempotencyKey = p.idempotencyKey := by
  simp [Channel.slot, Channel.request, Client.idempotencyHeader, if_pos hkey, Request.slot]

/-- A slot has the key of its requests. -/
theorem slot_key {x : Externals} {q : Request} {k : Slot} (h : q.slot x = some k) :
    k.2 = q.idempotencyKey := by
  unfold Request.slot at h
  split at h
  case isTrue => cases h
  case isFalse =>
    split at h
    case h_1 => cases h
    case h_2 ws _ =>
      rw [Option.some.injEq] at h
      rw [← h]

/-- The transitions of the system. -/
inductive DeliveryMoved (s : Delivery) : DeliveryEvent → Delivery → Prop
  | queued (e : DeliveryEvent) (qe : QueueEvent) (q : QueueState) (hserver : e.server? = none)
      (hstep : s.queue.step qe = some q) (hacked : q.acked = s.queue.acked)
      (hnext : ∀ item, s.queue.next = some item → q.next = some item) :
      DeliveryMoved s e { s with queue := q }
  | posted (r : ReqId) (fresh : String) (item : QueueItem) (hnext : s.queue.next = some item)
      (hown : c.own r = true)
      (hrequest : c.deployment.requests r = c.request item.payload fresh) :
      DeliveryMoved s (.post r fresh)
        { s with sent := s.sent ++ [(r, item.id)], waiting := some r }
  | served (e : Event) (committed : Bool) (g : Gateway) (hreaches : s.reaches c e = true)
      (hpossible : commitPossible s.server e committed = true)
      (hstep : step c.deployment s.server e = some g) :
      DeliveryMoved s (.server e committed)
        { s with server := g
                 commits := s.commits ++ if committed then e.request?.toList else [] }
  | answered (t : Transport) (r : ReqId) (hwaiting : s.waiting = some r)
      (hanswer : (s.server.reqs r).mayAnswer t = true) :
      DeliveryMoved s (.answer t) { s with waiting := none, replies := s.replies ++ [t] }
  | finished (now delay : Time) (q : QueueState) (hwaiting : s.waiting = none)
      (hstep : s.queue.clientStep c.python (.send s.replies now delay) = some q) :
      DeliveryMoved s (.finish now delay) { s with queue := q, replies := [] }

/-- The invariant of the queue and the requests: every request that was posted is
    the client's own and was made for an item on the record, and no other request
    of the client has committed. -/
structure Booked (s : Delivery) : Prop where
  orderly : Orderly s.queue
  recorded : Recorded s.queue
  posted : ∀ r id, (r, id) ∈ s.sent → c.own r = true ∧ ∃ j ∈ s.queue.enqueued, j.id = id ∧
    ∃ fresh, c.deployment.requests r = c.request j.payload fresh
  commits : ∀ r ∈ s.commits, c.own r = true → ∃ id, (r, id) ∈ s.sent

/-- What is known about the acknowledgement of the item with this id: the client
    waits for a request of the item at the head of the batch, and a success for
    the item has a reason. -/
structure Followed (id : Nat) (Reason : List ReqId → Prop) (s : Delivery) : Prop where
  waiting : ∀ r, s.waiting = some r →
    ∃ item, s.queue.next = some item ∧ (r, item.id) ∈ s.sent
  replies : ∀ resp, .reply resp ∈ s.replies → resp.status < 300 →
    ∃ item, s.queue.next = some item ∧ (item.id = id → Reason s.commits)
  acked : ∀ i ∈ s.queue.acked, i.id = id → Reason s.commits

/-- The invariant for an item whose requests have a slot. -/
structure Receipted (k : Slot) (id : Nat) (es : List DeliveryEvent) (s : Delivery) : Prop where
  served : run (step c.deployment) initial (serverEvents es) = some s.server
  once : Once c.deployment k (serverEvents es) s.server
  undoubled : Undoubled c.deployment k s.server s.commits
  booked : Booked c s
  followed : Followed id (fun commits => ∃ r ∈ commits, c.deployment.slot r = some k) s

/-- The invariant for an item whose requests have no slot. They are turned away,
    so nothing is committed and nothing acknowledged. -/
structure TurnedAway (id : Nat) (s : Delivery) : Prop where
  booked : Booked c s
  never : ∀ r, (c.deployment.requests r).idempotencyKey ≠ "" → c.deployment.slot r = none →
    NeverStarted (s.server.reqs r) ∧ r ∉ s.commits
  followed : Followed id (fun _ => False) s

/-- No clock reading of the step is past the expiry of the slot's row. -/
def NoneExpires (k : Slot) (s : Delivery) : DeliveryEvent → Prop
  | .server e _ => NoExpiry c.deployment k s.server e
  | _ => True

instance (k : Slot) (s : Delivery) (e : DeliveryEvent) : Decidable (NoneExpires c k s e) :=
  match e with
  | .server e _ => inferInstanceAs (Decidable (NoExpiry c.deployment k s.server e))
  | .enqueue _ _ | .flush | .nextDue _ | .post _ _ | .answer _ | .finish _ _ => isTrue trivial

/-- The keys of the items are distinct and not empty, and no request from
    elsewhere uses the slot of one. -/
structure KeysApart (s : Delivery) : Prop where
  distinct : (s.queue.enqueued.map fun i => i.payload.idempotencyKey).Nodup
  nonempty : ∀ i ∈ s.queue.enqueued, i.payload.idempotencyKey ≠ ""
  others : ∀ r, c.own r = false → ∀ i ∈ s.queue.enqueued, ∀ k, c.slot i.payload = some k →
    c.deployment.slot r ≠ some k

variable {c} {s s' : Delivery} {id : Nat} (maxSize : Int) {e : DeliveryEvent}

/-- A call on the queue that is not an answer of the sender leaves the next item
    and the acknowledged ones alone. -/
theorem onQueue_moved (qe : QueueEvent) (hserver : e.server? = none)
    (hsend : ∀ a now delay, qe ≠ .send a now delay) (h : s.onQueue qe = some s') :
    DeliveryMoved c s e s' := by
  rcases Option.map_eq_some_iff.mp h with ⟨q, hstep, rfl⟩
  have hidle : ∀ b, s.queue.flushing = b → (b.bind fun f => f.batch.head?) = none →
      ∀ item, s.queue.next = some item → q.next = some item := by
    intro b hb hnone item hitem
    rw [QueueState.next, hb, hnone] at hitem
    cases hitem
  cases queueStep_moved s.queue hstep with
  | refused | enqueued => exact .queued e _ _ hserver hstep rfl (fun _ h => h)
  | began hflush | drained now sent failed hflush | batched now sent failed hflush =>
    exact .queued e _ _ hserver hstep rfl (hidle _ hflush rfl)
  | acked | backedOff | exhausted | buried | escaped => exact absurd rfl (hsend _ _ _)

/-- `DeliveryMoved` is everything a step does. -/
theorem delivery_moved (h : s.step c e = some s') : DeliveryMoved c s e s' := by
  cases e with
  | enqueue p now => exact onQueue_moved (.enqueue p now) rfl (fun _ _ _ => nofun) h
  | flush => exact onQueue_moved .flush rfl (fun _ _ _ => nofun) h
  | nextDue now => exact onQueue_moved (.nextDue now) rfl (fun _ _ _ => nofun) h
  | post r fresh =>
    simp only [Delivery.step] at h
    split at h
    case h_1 => cases h
    case h_2 item hnext =>
      simp only [Option.ite_none_right_eq_some, Option.some.injEq] at h
      rcases h with ⟨⟨hown, _, _, _, hrequest⟩, rfl⟩
      exact .posted r fresh item hnext hown hrequest
  | server e committed =>
    simp only [Delivery.step, Option.ite_none_right_eq_some, Option.map_eq_some_iff] at h
    rcases h with ⟨⟨hreaches, hpossible⟩, g, hstep, rfl⟩
    exact .served e committed g hreaches hpossible hstep
  | answer t =>
    simp only [Delivery.step] at h
    split at h
    case h_1 => cases h
    case h_2 r hwaiting =>
      simp only [Option.ite_none_right_eq_some, Option.some.injEq] at h
      rcases h with ⟨hanswer, rfl⟩
      exact .answered t r hwaiting hanswer
  | finish now delay =>
    simp only [Delivery.step, Option.ite_none_right_eq_some, Option.map_eq_some_iff] at h
    rcases h with ⟨hwaiting, q, hstep, rfl⟩
    exact .finished now delay q hwaiting hstep

theorem booked_start : Booked c (Delivery.start maxSize) where
  orderly := orderly_empty maxSize
  recorded := recorded_empty maxSize
  posted _ _ h := absurd h List.not_mem_nil
  commits _ h := absurd h List.not_mem_nil

/-- A step of the queue keeps the books. -/
theorem Booked.queue_step (h : Booked c s) {qe : QueueEvent} {q : QueueState}
    (hstep : s.queue.step qe = some q) {s' : Delivery} (hqueue : s'.queue = q)
    (hsent : s'.sent = s.sent) (hcommits : s'.commits = s.commits) : Booked c s' := by
  refine ⟨?_, ?_, fun r id hr => ?_, ?_⟩
  · rw [hqueue]
    exact orderly_step s.queue h.orderly hstep
  · rw [hqueue]
    exact recorded_step h.orderly h.recorded hstep
  · rw [hsent] at hr
    rcases h.posted r id hr with ⟨hown, j, hj, hid, hfresh⟩
    refine ⟨hown, j, ?_, hid, hfresh⟩
    rw [hqueue]
    exact enqueued_subset_step hstep hj
  · rw [hcommits, hsent]
    exact h.commits

/-- One step keeps the books. -/
theorem booked_step (h : Booked c s) (hs : s.step c e = some s') : Booked c s' := by
  cases delivery_moved hs with
  | queued _ qe q hserver hstep => exact h.queue_step hstep rfl rfl rfl
  | posted r fresh item hnext hown hrequest =>
    refine ⟨h.orderly, h.recorded, fun r' id hr => ?_, fun r' hr hown' => ?_⟩
    · rcases List.mem_append.mp hr with hr | hr
      · exact h.posted r' id hr
      · -- The item at the head of the batch is on the record.
        simp only [List.mem_singleton, Prod.mk.injEq] at hr
        rcases hr with ⟨rfl, rfl⟩
        have hmem := h.orderly.next_mem s.queue item hnext
        rcases h.recorded.pending item hmem with ⟨j, hj, hid, hpayload⟩
        refine ⟨hown, j, hj, hid, fresh, ?_⟩
        rw [hpayload]
        exact hrequest
    · rcases h.commits r' hr hown' with ⟨id, hid⟩
      exact ⟨id, List.mem_append_left _ hid⟩
  | served e committed g hreaches =>
    refine ⟨h.orderly, h.recorded, h.posted, fun r hr hown => ?_⟩
    rcases List.mem_append.mp hr with hr | hr
    · exact h.commits r hr hown
    · -- The gateway only knows requests that were posted.
      cases committed with
      | false => exact absurd hr List.not_mem_nil
      | true =>
        cases e with
        | purge => exact absurd hr List.not_mem_nil
        | request r' =>
          have hr' : r = r' := List.mem_singleton.mp hr
          subst hr'
          simp only [Delivery.reaches, hown, Bool.not_true, Bool.false_or,
            decide_eq_true_eq, List.mem_map] at hreaches
          rcases hreaches with ⟨⟨_, id⟩, hp, rfl⟩
          exact ⟨id, hp⟩
  | answered => exact ⟨h.orderly, h.recorded, h.posted, h.commits⟩
  | finished now delay q hwaiting hstep =>
    rcases Option.bind_eq_some_iff.mp hstep with ⟨qe, _, hq⟩
    exact h.queue_step hq rfl rfl rfl

theorem followed_start (Reason : List ReqId → Prop) :
    Followed id Reason (Delivery.start maxSize) where
  waiting _ h := nomatch h
  replies _ h := absurd h List.not_mem_nil
  acked _ h := absurd h List.not_mem_nil

/-- The end of a call. It acknowledges the item at the head of the batch, on a
    success for it. -/
theorem acked_finish (s : Delivery) {Reason : List ReqId → Prop} (h : Followed id Reason s)
    {now delay : Time}
    {q : QueueState} (hstep : s.queue.clientStep c.python (.send s.replies now delay) = some q)
    {i : QueueItem} (hi : i ∈ q.acked) (hid : i.id = id) : Reason s.commits := by
  rcases Option.bind_eq_some_iff.mp hstep with ⟨qe, hqe, hq⟩
  simp only [ClientEvent.queueEvent, Option.map_eq_some_iff] at hqe
  rcases hqe with ⟨a, hsender, rfl⟩
  cases queueSend_moved s.queue hq with
  | acked _ _ item rest sent failed hflush =>
    rcases List.mem_append.mp hi with hi | hi
    · exact h.acked i hi hid
    · rw [List.mem_singleton.mp hi] at hid
      rcases Client.sender_cases hsender with
        ⟨last, hlast, ⟨err, _, ha⟩ | ⟨⟨data, hdata⟩, _⟩⟩
      · cases ha
      · rcases Client.attempt_ok_status hdata with ⟨resp, rfl, hstatus⟩
        rcases h.replies resp (List.mem_of_getLast? hlast) hstatus with ⟨item', hnext, hreason⟩
        rw [s.queue.next_of_flushing hflush, Option.some.injEq] at hnext
        exact hreason (hnext ▸ hid)
  | backedOff | exhausted | buried | escaped => exact h.acked i hi hid

/-- One step, where a success a posted request reports has a reason. -/
theorem followed_step {Reason : List ReqId → Prop}
    (hmono : ∀ cs cs', Reason cs → Reason (cs ++ cs'))
    (hsuccess : ∀ r reply, (r, id) ∈ s.sent → (s.server.reqs r).reply = some reply →
      reply.status < 300 → Reason s.commits)
    (h : Followed id Reason s) (hs : s.step c e = some s') : Followed id Reason s' := by
  cases delivery_moved hs with
  | queued _ qe q hserver hstep hacked hnext =>
    refine ⟨fun r hr => ?_, fun resp hresp hstatus => ?_, fun i hi => ?_⟩
    · rcases h.waiting r hr with ⟨item, hitem, hsent⟩
      exact ⟨item, hnext item hitem, hsent⟩
    · rcases h.replies resp hresp hstatus with ⟨item, hitem, hreason⟩
      exact ⟨item, hnext item hitem, hreason⟩
    · exact h.acked i (hacked ▸ hi)
  | posted r fresh item hnext =>
    refine ⟨fun r' hr' => ?_, h.replies, h.acked⟩
    refine ⟨item, hnext, List.mem_append_right _ ?_⟩
    rw [← Option.some.inj hr']
    exact List.mem_singleton_self _
  | served =>
    refine ⟨h.waiting, fun resp hresp hstatus => ?_, fun i hi hid => hmono _ _ (h.acked i hi hid)⟩
    rcases h.replies resp hresp hstatus with ⟨item, hitem, hreason⟩
    exact ⟨item, hitem, fun hid => hmono _ _ (hreason hid)⟩
  | answered t r hwaiting hanswer =>
    refine ⟨fun r' hr' => absurd hr' (by simp), fun resp hresp hstatus => ?_, h.acked⟩
    rcases List.mem_append.mp hresp with hresp | hresp
    · exact h.replies resp hresp hstatus
    · -- The reply below 300 is the handler's own.
      rw [← List.mem_singleton.mp hresp] at hanswer
      rcases h.waiting r hwaiting with ⟨item, hitem, hsent⟩
      refine ⟨item, hitem, fun hid => ?_⟩
      have hge : decide (300 ≤ resp.status) = false := decide_eq_false (by omega)
      simp only [Local.mayAnswer, hge, Bool.false_or, Option.any_eq_true] at hanswer
      rcases hanswer with ⟨reply, hreply, harrives⟩
      simp only [HttpReply.arrivesAs, Bool.and_eq_true, beq_iff_eq] at harrives
      exact hsuccess r reply (hid ▸ hsent) hreply (harrives.1.1 ▸ hstatus)
  | finished now delay q hwaiting hstep =>
    refine ⟨fun r hr => ?_, fun resp hresp => absurd hresp List.not_mem_nil, fun i hi hid => ?_⟩
    · exact nomatch (hwaiting.symm.trans hr)
    · exact acked_finish s h hstep hi hid

/-- A step is one of the gateway, or leaves it and its commits alone. -/
theorem server_moved (hs : s.step c e = some s') :
    (∃ ev committed, e = .server ev committed ∧ commitPossible s.server ev committed = true ∧
      step c.deployment s.server ev = some s'.server ∧
      s'.commits = s.commits ++ if committed then ev.request?.toList else []) ∨
    (e.server? = none ∧ s'.server = s.server ∧ s'.commits = s.commits) := by
  cases delivery_moved hs with
  | served ev committed g hreaches hpossible hstep =>
    exact .inl ⟨ev, committed, rfl, hpossible, hstep, rfl⟩
  | queued _ qe q hserver => exact .inr ⟨hserver, rfl, rfl⟩
  | posted | answered | finished => exact .inr ⟨rfl, rfl, rfl⟩

/-- A request posted for an item, while the items on the record are among the
    given ones. -/
theorem Booked.request_of (h : Booked c s) {items : List QueueItem}
    (hsub : s.queue.enqueued ⊆ items) {slot : Option Slot}
    (hitem : ∀ j ∈ items, j.id = id → j.payload.idempotencyKey ≠ "" ∧ c.slot j.payload = slot)
    {r : ReqId} (hr : (r, id) ∈ s.sent) :
    c.own r = true ∧ (c.deployment.requests r).idempotencyKey ≠ "" ∧
      c.deployment.slot r = slot := by
  rcases h.posted r id hr with ⟨hown, j, hj, hid, fresh, hrequest⟩
  rcases hitem j (hsub hj) hid with ⟨hkey, hslot⟩
  rcases request_slot c hkey fresh with ⟨hsame, hsamekey⟩
  rw [Deployment.slot, hrequest, hsame, hsamekey]
  exact ⟨hown, hkey, hslot⟩

theorem receipted_start (k : Slot) :
    Receipted c k id [] (Delivery.start maxSize) where
  served := rfl
  once := once_initial
  undoubled := undoubled_initial c.deployment k
  booked := booked_start maxSize
  followed := followed_start maxSize _

/-- One step keeps it, where the slot is the client's and its row does not
    expire. -/
theorem receipted_step {k : Slot} {items : List QueueItem}
    (hslots : ∀ r, c.deployment.slot r = some k → c.own r = true)
    (hitem : ∀ j ∈ items, j.id = id → j.payload.idempotencyKey ≠ "" ∧ c.slot j.payload = some k)
    {es : List DeliveryEvent} (h : Receipted c k id es s)
    (hg : s.queue.enqueued ⊆ items ∧ NoneExpires c k s e)
    (hs : s.step c e = some s') : Receipted c k id (es ++ [e]) s' := by
  have hbooked := booked_step h.booked hs
  have hfollowed := followed_step
    (fun cs cs' ⟨r, hr, hslot⟩ => ⟨r, List.mem_append_left cs' hr, hslot⟩)
    (fun r reply hr hreply hstatus => success_was_committed k
      h.once h.undoubled (h.booked.request_of hg.1 hitem hr).2.2 hreply
      hstatus)
    h.followed hs
  -- The gateway sees its own events only, so a step of the client adds none.
  have happend : serverEvents (es ++ [e]) = serverEvents es ++ e.server?.toList := by
    simp only [serverEvents, List.filterMap_append, List.filterMap_cons, List.filterMap_nil]
    cases e.server? <;> rfl
  rcases server_moved hs with ⟨ev, committed, rfl, hpossible, hstep, hcommits⟩ |
    ⟨hnone, hserver, hcommits⟩
  · have hsql : ∀ r, c.deployment.slot r = some k →
        (c.deployment.requests r).endpoint = .sqlExecute :=
      fun r hslot => c.own_endpoint r (hslots r hslot)
    have hone : serverEvents (es ++ [.server ev committed]) = serverEvents es ++ [ev] := happend
    refine ⟨?_, ?_, ?_, hbooked, hfollowed⟩
    · rw [hone]
      exact (Transition.run_snoc _ _).mpr ⟨s.server, h.served, hstep⟩
    · rw [hone]
      exact once_step h.served h.once hg.2 hstep
    · rw [hcommits]
      exact undoubled_step k h.once hsql h.undoubled hpossible hstep
  · have hsame : serverEvents (es ++ [e]) = serverEvents es := by
      rw [happend, hnone, Option.toList_none, List.append_nil]
    refine ⟨?_, ?_, ?_, hbooked, hfollowed⟩
    · rw [hsame, hserver]
      exact h.served
    · rw [hsame, hserver]
      exact h.once
    · rw [hserver, hcommits]
      exact h.undoubled

theorem turnedAway_start : TurnedAway c id (Delivery.start maxSize) where
  booked := booked_start maxSize
  never r _ _ := by
    refine ⟨⟨.inl rfl, rfl, fun ir h => ?_⟩, List.not_mem_nil⟩
    cases h
  followed := followed_start maxSize _

/-- One step keeps it. -/
theorem turnedAway_step {items : List QueueItem}
    (hitem : ∀ j ∈ items, j.id = id → j.payload.idempotencyKey ≠ "" ∧ c.slot j.payload = none)
    (h : TurnedAway c id s)
    (hsub : s.queue.enqueued ⊆ items) (hs : s.step c e = some s') : TurnedAway c id s' := by
  refine ⟨booked_step h.booked hs, fun r hkey hslot => ?_, ?_⟩
  · have hnever := h.never r hkey hslot
    rcases server_moved hs with ⟨ev, committed, rfl, hpossible, hstep, hcommits⟩ |
      ⟨_, hserver, hcommits⟩
    · refine ⟨neverStarted_step hstep hkey hslot hnever.1, ?_⟩
      rw [hcommits]
      intro hr
      rcases List.mem_append.mp hr with hr | hr
      · exact hnever.2 hr
      · cases committed with
        | false => exact absurd hr List.not_mem_nil
        | true =>
          -- A commit is in the execution, where the request never got.
          rcases commit_ends_execution s.server ev hpossible hstep with
            ⟨r', hr', hphase, _⟩
          rw [if_pos rfl, hr', Option.toList_some, List.mem_singleton] at hr
          rw [← hr] at hphase
          rcases hnever.1.phase with hp | hp
          · exact nomatch (hp.symm.trans hphase)
          · rw [hphase] at hp
            exact absurd hp Bool.false_ne_true
    · rw [hserver, hcommits]
      exact hnever
  · refine followed_step (fun _ _ hfalse => hfalse) (fun r reply hr hreply _ => ?_) h.followed hs
    rcases h.booked.request_of hsub hitem hr with ⟨_, hkey, hslot⟩
    rw [(h.never r hkey hslot).1.reply_eq_none] at hreply
    cases hreply

/-- The record only grows. -/
theorem delivery_enqueued_subset (hs : s.step c e = some s') :
    s.queue.enqueued ⊆ s'.queue.enqueued := by
  cases delivery_moved hs with
  | queued _ qe q hserver hstep => exact enqueued_subset_step hstep
  | finished now delay q hwaiting hstep =>
    rcases Option.bind_eq_some_iff.mp hstep with ⟨qe, _, hq⟩
    exact enqueued_subset_step hq
  | _ => exact List.Subset.refl _

/-- There is one item with its id, so what is true of it is true of all of them. -/
theorem KeysApart.same_id (h : KeysApart c s) (hrecord : Recorded s.queue) {j : QueueItem}
    (hj : j ∈ s.queue.enqueued) (i : QueueItem) (hi : i ∈ s.queue.enqueued) (hid : i.id = j.id) :
    i.payload.idempotencyKey ≠ "" ∧ c.slot i.payload = c.slot j.payload := by
  rw [KeyedList.eq_of_key_eq QueueItem.id _ hrecord.ordered hj hi hid]
  exact ⟨h.nonempty j hj, rfl⟩

/-- The requests in the slot of an item are the client's. -/
theorem KeysApart.own_of_slot (h : KeysApart c s) {j : QueueItem} (hj : j ∈ s.queue.enqueued)
    {k : Slot} (hslot : c.slot j.payload = some k) (r : ReqId) (hr : c.deployment.slot r = some k) :
    c.own r = true := by
  cases hown : c.own r with
  | true => rfl
  | false => exact absurd hr (h.others r hown j hj k hslot)

/-- An item whose requests have a slot. -/
theorem item_with_slot (hkeys : KeysApart c s) (es : List DeliveryEvent) {j : QueueItem}
    (hj : j ∈ s.queue.enqueued) {k : Slot} (hslot : c.slot j.payload = some k)
    (h : Receipted c k j.id es s) :
    s.commitsOf j ≤ 1 ∧ (∀ i ∈ s.queue.acked, i.id = j.id → s.commitsOf j = 1) := by
  have hitem := hkeys.same_id h.booked.recorded hj
  rw [hslot] at hitem
  have hle : s.commitsOf j ≤ 1 := by
    refine Nat.le_trans (List.countP_mono_left fun r _ hr => ?_) h.undoubled.once
    have hsent := of_decide_eq_true hr
    exact decide_eq_true (h.booked.request_of (List.Subset.refl _) hitem hsent).2.2
  refine ⟨hle, fun i hi hid => ?_⟩
  rcases h.followed.acked i hi hid with ⟨r, hr, hrslot⟩
  -- The committed request is the client's, and with this key it is the item's.
  have hown := hkeys.own_of_slot hj hslot r hrslot
  rcases h.booked.commits r hr hown with ⟨id, hsent⟩
  rcases h.booked.posted r id hsent with ⟨_, j', hj', hid', fresh, hrequest⟩
  have hkey : j'.payload.idempotencyKey = j.payload.idempotencyKey := by
    have hpost := (request_slot c (hkeys.nonempty j' hj') fresh).2
    have hk := slot_key hrslot
    rw [hrequest, hpost] at hk
    have hk' := slot_key hslot
    rw [(request_slot c (hkeys.nonempty j hj) "").2] at hk'
    rw [← hk, hk']
  have hsame : j' = j := List.inj_on_of_nodup_map hkeys.distinct hj' hj hkey
  rw [← hid', hsame] at hsent
  have hpos : 0 < s.commitsOf j := List.countP_pos_iff.mpr ⟨r, hr, decide_eq_true hsent⟩
  omega

/-- An item whose requests have no slot. -/
theorem item_without_slot (hkeys : KeysApart c s) {j : QueueItem} (hj : j ∈ s.queue.enqueued)
    (hslot : c.slot j.payload = none) (h : TurnedAway c j.id s) :
    s.commitsOf j ≤ 1 ∧ (∀ i ∈ s.queue.acked, i.id = j.id → s.commitsOf j = 1) := by
  have hitem := hkeys.same_id h.booked.recorded hj
  rw [hslot] at hitem
  have hzero : s.commitsOf j = 0 := by
    refine List.countP_eq_zero.mpr fun r hr hdec => ?_
    rcases h.booked.request_of (List.Subset.refl _) hitem (of_decide_eq_true hdec)
      with ⟨_, hkey, hnone⟩
    exact (h.never r hkey hnone).2 hr
  refine ⟨by omega, fun i hi hid => absurd (h.followed.acked i hi hid) not_false⟩

/-- One item of a run. -/
theorem item_exactly_once {es : List DeliveryEvent}
    (hrun : run (Delivery.step c) (Delivery.start maxSize) es = some s) (hkeys : KeysApart c s)
    (hrecord : Recorded s.queue) {j : QueueItem} (hj : j ∈ s.queue.enqueued)
    (hexp : ∀ k, c.slot j.payload = some k →
      Allowed (Delivery.step c) (NoneExpires c k) (Delivery.start maxSize) es) :
    s.commitsOf j ≤ 1 ∧ (∀ i ∈ s.queue.acked, i.id = j.id → s.commitsOf j = 1) := by
  -- On the way the record holds nothing that it does not hold in the end.
  have hsub := (Transition.allowed_related_to_end
    (fun t u => t.queue.enqueued ⊆ u.queue.enqueued) (fun _ => List.Subset.refl _)
    (fun _ _ _ h₁ h₂ => List.Subset.trans h₁ h₂)
    (fun _ _ _ => delivery_enqueued_subset) es _ s hrun).2
  have hitem := hkeys.same_id hrecord hj
  cases hslot : c.slot j.payload with
  | none =>
    rw [hslot] at hitem
    refine item_without_slot hkeys hj hslot ?_
    exact Transition.run_invariant (TurnedAway c j.id)
      (turnedAway_start maxSize)
      (fun t e t' h hsub hs => turnedAway_step hitem h hsub hs) hsub hrun
  | some k =>
    rw [hslot] at hitem
    have hslots := hkeys.own_of_slot hj hslot
    refine item_with_slot hkeys es hj hslot ?_
    exact Transition.run_trace_invariant (Receipted c k j.id) (receipted_start maxSize k)
      (fun es' t e t' _ h hg hs => receipted_step hslots hitem h hg hs) es s
      (Transition.allowed_and hsub (hexp k hslot)) hrun

variable (c)

end

/-- A client whose requests are the first eight, all for the item with the key
    `a`. -/
def oneItemChannel : Channel where
  python := plainPython
  deployment :=
    { externals := storedExternals
      requests := fun r =>
        { endpoint := .sqlExecute, workspaceID := "w", idempotencyKey := if r < 8 then "a" else "z"
          requestHash := "h", ttl := idempotencyTTL }
      maxResponseBodyBytes := 0 }
  workspaceID := "w"
  requestHash _ _ := "h"
  own r := decide (r < 8)
  own_endpoint _ _ := rfl
  own_workspace _ _ := rfl

/-- What the database answers to the insert. -/
def insertedResponse : Response :=
  { command := "INSERT", columns := [], rows := [], rowsAffected := 1, durationMS := 3 }

/-- The first request is carried out and its answer lost. The second one gets
    the stored answer. -/
def lostAnswerRun : List DeliveryEvent :=
  [.enqueue (insertPayload "a") 0, .flush, .nextDue 1,
    .post 0 "", .server (.request 0 .enter) false, .server (.reply 0 1) false,
    .server (.reply 0 2) false, .server (.reply 0 3) false,
    .server (.request 0 (.execute (.sql (.ok insertedResponse)))) true,
    .server (.reply 0 4) false, .answer (.failed "timed out"),
    .post 1 "", .server (.request 1 .enter) false, .server (.reply 1 5) false,
    .server (.reply 1 6) false, .server (.reply 1 7) false, .server (.reply 1 8) false,
    .answer (.reply { status := 200, content := responseBody insertedResponse, text := ""
                      json := .ok (.object []), retryAfter := none, replayed := some "true" }),
    .finish 9 0]

theorem oneItemChannel_slot {p : Payload} (hkey : p.idempotencyKey = "a") :
    oneItemChannel.slot p = some (0, "a") := by
  have hne : ("a" : String) ≠ "" := by decide
  simp only [Channel.slot, Channel.request, Client.idempotencyHeader, hkey, if_pos hne,
    Option.getD_some, Request.slot, if_neg hne, oneItemChannel, storedExternals]

end CoopDB
