import CoopDB.Theory.Client
import CoopDB.Theory.Queue.Conservation

/-!
# What Is Moved to the Dead Letters

`flush` is meant to give up on an item only when there is no point in sending it
again: after a client error that is not about the rate, or after twelve failed
attempts. An item that met a transient error is to stay, with one attempt more.

The code tells the two apart by the class of the exception, and its second
handler takes every error of the package that is not a `NetworkError`. That
includes the other two classes the client itself retries. So an item whose five
attempts ended in a 429 or in a server error is given up at once. The same goes
for a reply outside 4xx that is no success, and for a success whose body is not
JSON.

## Main definitions

* `OnlyPermanentBuried`: The rule, for one step.
* `Misfiled`: Answers that raise an error which is wrongly taken as permanent.
* `SparesMisfiled`: No item with attempts left meets such an answer.

## Theorems

* `attempt_misfiled_iff`: These answers, and no others, raise an error of the package that
  is neither permanent nor a `NetworkError`.
* `onlyPermanentBuried_iff`: A step keeps the rule exactly if it spares misfiled items.
* `dead_letters_permanent_iff`: So does a run.
* `outage_buries_item`: Five replies of an overloaded server, and the write is given up.
-/

namespace CoopDB

open Transition (run Allowed)

/-- The item goes from `pending` to `dead` in this step. -/
def MovedToDead (q q' : QueueState) (item : QueueItem) : Prop :=
  item ∈ q.pending ∧ (∀ i ∈ q'.pending, i.id ≠ item.id) ∧
    ∃ row, q'.dead = q.dead ++ [row] ∧ row.payload = item.payload

/-- The error of the package the sender raises, if it does. -/
def ClientEvent.raised (x : Python) : ClientEvent → Option ApiError
  | .send replies _ _ =>
    match Client.sender x replies with
    | some (.error (.api e)) => some e
    | _ => none
  | _ => none

/-- Only an item with a permanent error or with all its attempts used is moved
    to `dead`. After a transient error any other item is still pending, with one
    attempt more. -/
structure OnlyPermanentBuried (x : Python) (q : QueueState) (e : ClientEvent)
    (q' : QueueState) : Prop where
  buried : ∀ item, MovedToDead q q' item →
    queueMaxAttempts ≤ item.attempts + 1 ∨ ∃ err, e.raised x = some err ∧ err.Permanent
  kept : ∀ item err, q.next = some item → e.raised x = some err → err.kind.transient = true →
    item.attempts + 1 < queueMaxAttempts →
    ∃ i ∈ q'.pending, i.id = item.id ∧ i.payload = item.payload ∧ i.attempts = item.attempts + 1

/-- A 429, an error reply outside 4xx, or a success whose body is not JSON. The
    error replies must be such that they raise an error of the package. -/
def Misfiled (x : Python) : Transport → Prop
  | .failed _ => False
  | .reply r =>
    (r.status < 300 ∧ r.content.isEmpty = false ∧ ∃ e, r.json = .error (.decode e)) ∨
    (300 ≤ r.status ∧ (r.status = 429 ∨ r.status < 400 ∨ 500 ≤ r.status) ∧ r.Raises x)

/-- No item with attempts left meets such an answer in the last attempt of its
    call. -/
def SparesMisfiled (x : Python) (q : QueueState) : ClientEvent → Prop
  | .send replies _ _ => ∀ item last, q.next = some item → replies.getLast? = some last →
      item.attempts + 1 < queueMaxAttempts → ¬ Misfiled x last
  | _ => True

section

variable (x : Python)

/-- The answers that raise an error which is neither permanent nor a network
    error. -/
theorem attempt_misfiled_iff (t : Transport) :
    Misfiled x t ↔ ∃ err, Client.attempt x t = .error (.api err) ∧ err.kind ≠ .network ∧
      ¬ err.Permanent := by
  cases t with
  | failed => simp [Misfiled, Client.attempt]
  | reply r =>
    simp only [Misfiled, Client.attempt]
    by_cases hstatus : r.status < 300
    · simp only [Client.handle_below_300 x hstatus]
      constructor
      · rintro (⟨_, hcontent, e, he⟩ | ⟨hge, _⟩)
        · refine ⟨_, ⟨hcontent, e, he, rfl⟩, by simp, ?_⟩
          rintro ⟨status, hnone, _⟩
          cases hnone
        · exact absurd hstatus (by omega)
      · rintro ⟨err, ⟨hcontent, e, he, _⟩, _⟩
        exact .inl ⟨hstatus, hcontent, e, he⟩
    · simp only [Client.handle, if_neg hstatus, Except.error.injEq]
      constructor
      · rintro (⟨hlt, _⟩ | ⟨_, hrange, hraises⟩)
        · exact absurd hlt hstatus
        · rcases Client.errorOf_of_raises x r hraises with ⟨err, herr⟩
          rcases Client.errorOf_eq_api herr with ⟨_, hs, hkind, _⟩
          refine ⟨err, herr, hkind, ?_⟩
          rintro ⟨status, hstatus', hlow, hhigh, h429⟩
          rw [hs, Option.some.injEq] at hstatus'
          omega
      · rintro ⟨err, herr, hkind, hperm⟩
        rcases Client.errorOf_eq_api herr with ⟨hraises, hs, _, _⟩
        refine .inr ⟨Int.not_lt.mp hstatus, ?_, hraises⟩
        by_contra hrange
        exact hperm ⟨r.status, hs, by omega, by omega, by omega⟩

/-- A permanent error is not one of those the client retries. -/
theorem attempt_permanent {t : Transport} {err : ApiError}
    (h : Client.attempt x t = .error (.api err)) (hperm : err.Permanent) :
    err.kind.transient = false := by
  rcases hperm with ⟨status, hstatus, hlow, hhigh, h429⟩
  cases t with
  | failed =>
    simp only [Client.attempt, Except.error.injEq, Raised.api.injEq] at h
    rw [← h] at hstatus
    cases hstatus
  | reply r =>
    simp only [Client.attempt] at h
    by_cases hlt : r.status < 300
    · rcases (Client.handle_below_300 x hlt err).mp h with ⟨_, e, _, herr⟩
      rw [herr] at hstatus
      cases hstatus
    · simp only [Client.handle, if_neg hlt, Except.error.injEq] at h
      rcases Client.errorOf_eq_api h with ⟨_, hs, _, htransient⟩
      rw [hs, Option.some.injEq] at hstatus
      cases hk : err.kind.transient with
      | false => rfl
      | true =>
        have := htransient hk
        omega

variable (q q' : QueueState)

/-- Where `dead` does not change, nothing was moved there. -/
theorem not_movedToDead (hdead : q'.dead = q.dead) (item : QueueItem) :
    ¬ MovedToDead q q' item := by
  rintro ⟨_, _, row, hrow, _⟩
  rw [hdead] at hrow
  exact absurd (List.self_eq_append_right.mp hrow) (List.cons_ne_nil row [])

/-- The item that `flush` moves to `dead` is the one it handed to the sender. -/
theorem movedToDead_removed (h : Orderly q) {item moved : QueueItem} (hmem : item ∈ q.pending)
    (hpending : q'.pending = KeyedList.remove QueueItem.id q.pending item.id)
    (hmoved : MovedToDead q q' moved) : moved = item := by
  rcases hmoved with ⟨hin, hout, _⟩
  refine KeyedList.eq_of_key_eq QueueItem.id q.pending h.ordered hmem hin ?_
  by_contra hid
  refine hout moved ?_ rfl
  rw [hpending]
  exact (KeyedList.mem_remove _ _ _ moved).mpr ⟨hin, hid⟩

/-- The item handed to the sender is moved to `dead` when it is buried. -/
theorem movedToDead_bury {item : QueueItem} {err : String} (hmem : item ∈ q.pending)
    (hpending : q'.pending = (q.bury item err).pending) (hdead : q'.dead = (q.bury item err).dead) :
    MovedToDead q q' item := by
  refine ⟨hmem, fun i hi => ?_, _, hdead, rfl⟩
  rw [hpending] at hi
  exact ((KeyedList.mem_remove _ _ _ i).mp hi).2

/-- A step in which the sender raises no error of the package keeps the rule. -/
theorem onlyPermanentBuried_of_quiet (e : ClientEvent) (hdead : q'.dead = q.dead)
    (hraised : e.raised x = none) : OnlyPermanentBuried x q e q' where
  buried item hmoved := absurd hmoved (not_movedToDead q q' hdead item)
  kept item err _ herr := absurd herr (by
    rw [hraised]
    simp)

/-- Where the last answer is misfiled, the sender raises an error that is
    neither permanent nor a network error. -/
theorem sender_of_misfiled (replies : List Transport) (a : Except Raised Unit)
    (hsender : Client.sender x replies = some a) (last : Transport)
    (hlast : replies.getLast? = some last) (hm : Misfiled x last) :
    ∃ err, a = .error (.api err) ∧ err.kind ≠ .network ∧ ¬ err.Permanent := by
  rcases (attempt_misfiled_iff x last).mp hm with ⟨err, herr, hkind, hperm⟩
  rcases Client.sender_cases hsender with ⟨last', hlast', hcases⟩
  rw [hlast, Option.some.injEq] at hlast'
  subst hlast'
  rcases hcases with ⟨r, hr, ha⟩ | ⟨⟨data, hdata⟩, _⟩
  · rw [herr, Except.error.injEq] at hr
    exact ⟨err, by rw [ha, ← hr], hkind, hperm⟩
  · rw [herr] at hdata
    cases hdata

/-- The error of the package a sender raises comes from the last attempt. -/
theorem sender_eq_api {replies : List Transport} {err : ApiError}
    (hsender : Client.sender x replies = some (.error (.api err))) :
    ∃ last, replies.getLast? = some last ∧ Client.attempt x last = .error (.api err) := by
  rcases Client.sender_cases hsender with ⟨last, hlast, ⟨r, hr, ha⟩ | ⟨_, ha | ⟨_, ha⟩⟩⟩
  · rw [Except.error.injEq] at ha
    exact ⟨last, hlast, ha ▸ hr⟩
  · cases ha
  · cases ha

/-- The rule for a send whose item is given up at once. -/
theorem onlyPermanentBuried_bury_iff (h : Orderly q) {replies : List Transport} (now delay : Time)
    {err : ApiError} (hsender : Client.sender x replies = some (.error (.api err)))
    (hkind : err.kind ≠ .network) {item : QueueItem} (hnext : q.next = some item)
    (hmem : item ∈ q.pending) (hpending : q'.pending = (q.bury item err.message).pending)
    (hdead : q'.dead = (q.bury item err.message).dead) :
    OnlyPermanentBuried x q (.send replies now delay) q' ↔
      SparesMisfiled x q (.send replies now delay) := by
  have hraised : (ClientEvent.send replies now delay).raised x = some err := by
    simp only [ClientEvent.raised, hsender]
  rcases sender_eq_api x hsender with ⟨last, hlast, hattempt⟩
  constructor
  · -- The item was moved, so the rule says that the error is permanent.
    intro hrule item' last' hitem hlast' hlow hm
    rw [hnext, Option.some.injEq] at hitem
    subst hitem
    rcases hrule.buried item (movedToDead_bury q q' hmem hpending hdead) with
      hmax | ⟨err', herr', hperm⟩
    · exact absurd hmax (Nat.not_le.mpr hlow)
    · rcases sender_of_misfiled x replies _ hsender last' hlast' hm with ⟨err'', ha, _, hnot⟩
      simp only [Except.error.injEq, Raised.api.injEq] at ha
      rw [hraised, Option.some.injEq] at herr'
      exact hnot (ha ▸ herr' ▸ hperm)
  · intro hspares
    have hperm : item.attempts + 1 < queueMaxAttempts → err.Permanent := by
      intro hlow
      by_contra hnot
      exact hspares item last hnext hlast hlow
        ((attempt_misfiled_iff x last).mpr ⟨err, hattempt, hkind, hnot⟩)
    refine ⟨fun moved hmoved => ?_, fun item' err' hitem herr' htransient hlow => ?_⟩
    · rw [movedToDead_removed q q' h hmem hpending hmoved]
      rcases Nat.lt_or_ge (item.attempts + 1) queueMaxAttempts with hlow | hmax
      · exact .inr ⟨err, hraised, hperm hlow⟩
      · exact .inl hmax
    · -- A permanent error is not transient.
      rw [hnext, Option.some.injEq] at hitem
      rw [hraised, Option.some.injEq] at herr'
      have hfalse := attempt_permanent x hattempt (hperm (hitem ▸ hlow))
      rw [herr', htransient] at hfalse
      exact absurd hfalse (by simp)

/-- The rule for a send that ends with this answer. -/
theorem onlyPermanentBuried_send_iff (h : Orderly q) {replies : List Transport} {now delay : Time}
    {a : Except Raised Unit} (hsender : Client.sender x replies = some a)
    (hmoved : QueueMoved q (.send a now delay) q') :
    OnlyPermanentBuried x q (.send replies now delay) q' ↔
      SparesMisfiled x q (.send replies now delay) := by
  have hmisfiled := sender_of_misfiled x replies a hsender
  cases hmoved with
  | acked _ _ | escaped text _ _ =>
    refine iff_of_true (onlyPermanentBuried_of_quiet x q _ _ rfl ?_) ?_
    · simp only [ClientEvent.raised, hsender]
    · intro _ last _ hlast _ hm
      rcases hmisfiled last hlast hm with ⟨err, ha, _⟩
      cases ha
  | backedOff err _ _ item rest sent failed hflush hkind =>
    refine iff_of_true ⟨fun moved hmoved => ?_, fun item' err' hitem _ _ _ => ?_⟩ ?_
    · refine absurd hmoved (not_movedToDead q _ ?_ moved)
      rfl
    · -- The row stays, with its attempts counted up.
      rw [q.next_of_flushing hflush, Option.some.injEq] at hitem
      subst hitem
      have hmem := h.head_mem q hflush
      refine ⟨_, (KeyedList.mem_modify _ _ _ _ _).mpr ⟨item, hmem, rfl⟩, ?_⟩
      rw [if_pos rfl]
      exact ⟨rfl, rfl, rfl⟩
    · intro _ last _ hlast _ hm
      rcases hmisfiled last hlast hm with ⟨err', ha, hne, _⟩
      simp only [Except.error.injEq, Raised.api.injEq] at ha
      exact hne (ha ▸ hkind)
  | exhausted err _ _ item rest sent failed hflush hkind hmax =>
    have hmem := h.head_mem q hflush
    refine iff_of_true ⟨fun moved hmoved => ?_, fun item' _ hitem _ _ hlow => ?_⟩ ?_
    · rw [movedToDead_removed q _ h hmem rfl hmoved]
      exact .inl hmax
    · rw [q.next_of_flushing hflush, Option.some.injEq] at hitem
      exact absurd hmax (Nat.not_le.mpr (hitem ▸ hlow))
    · intro item' _ hitem _ hlow
      rw [q.next_of_flushing hflush, Option.some.injEq] at hitem
      exact absurd hmax (Nat.not_le.mpr (hitem ▸ hlow))
  | buried err _ _ item rest sent failed hflush hkind =>
    exact onlyPermanentBuried_bury_iff x q _ h now delay hsender hkind
      (q.next_of_flushing hflush)
      (h.head_mem q hflush) rfl rfl

/-- The rule is kept by exactly the steps that spare misfiled answers. -/
theorem onlyPermanentBuried_iff (e : ClientEvent) (h : Orderly q)
    (hs : q.clientStep x e = some q') :
    OnlyPermanentBuried x q e q' ↔ SparesMisfiled x q e := by
  rcases Option.bind_eq_some_iff.mp hs with ⟨qe, hqe, hstep⟩
  have hmoved := queueStep_moved q hstep
  cases e with
  | send replies now delay =>
    simp only [ClientEvent.queueEvent, Option.map_eq_some_iff] at hqe
    rcases hqe with ⟨a, hsender, rfl⟩
    exact onlyPermanentBuried_send_iff x q q' h hsender hmoved
  | enqueue =>
    simp only [ClientEvent.queueEvent, Option.some.injEq] at hqe
    subst hqe
    refine iff_of_true (onlyPermanentBuried_of_quiet x q q' _ ?_ rfl) trivial
    cases hmoved with
    | refused | enqueued => rfl
  | flush =>
    simp only [ClientEvent.queueEvent, Option.some.injEq] at hqe
    subst hqe
    refine iff_of_true (onlyPermanentBuried_of_quiet x q q' _ ?_ rfl) trivial
    cases hmoved with
    | began => rfl
  | nextDue =>
    simp only [ClientEvent.queueEvent, Option.some.injEq] at hqe
    subst hqe
    refine iff_of_true (onlyPermanentBuried_of_quiet x q q' _ ?_ rfl) trivial
    cases hmoved with
    | drained | batched => rfl

/-- A step keeps the queue in order. -/
theorem orderly_clientStep (e : ClientEvent) (q' : QueueState) (h : Orderly q)
    (hs : q.clientStep x e = some q') : Orderly q' := by
  rcases Option.bind_eq_some_iff.mp hs with ⟨qe, _, hstep⟩
  exact orderly_step q h hstep

/-- In every run, whatever the transport answers, the rule is kept in all steps
    exactly when no item with attempts left meets a misfiled answer. -/
theorem dead_letters_permanent_iff (maxSize : Int) (es : List ClientEvent) (q : QueueState)
    (hrun : run (QueueState.clientStep x) (QueueState.empty maxSize) es = some q) :
    Allowed (QueueState.clientStep x)
        (fun q e => ∀ q', q.clientStep x e = some q' → OnlyPermanentBuried x q e q')
        (QueueState.empty maxSize) es ↔
      Allowed (QueueState.clientStep x) (SparesMisfiled x) (QueueState.empty maxSize) es := by
  refine Transition.allowed_iff_of_run Orderly
    (orderly_clientStep x) (fun q e q' h hs => ?_) es _ q (orderly_empty maxSize) hrun
  constructor
  · intro hall
    exact (onlyPermanentBuried_iff x q q' e h hs).mp (hall q' hs)
  · intro hspares q'' hs'
    exact (onlyPermanentBuried_iff x q q'' e h hs').mpr hspares

end

/-- An answer with this status and a problem document. -/
def problemResponse (status : Int) : Transport :=
  .reply { status := status, content := [123, 125], text := "", json := .ok (.object [])
           retryAfter := none, replayed := none }

/-- One write, sent with these answers. -/
def oneWrite (replies : List Transport) : List ClientEvent :=
  [.enqueue (insertPayload "a") 0, .flush, .nextDue 1, .send replies 1 0]

/-- A write that is refused with a 400 is given up, by the rule. -/
theorem refused_write_buried :
    (∃ q, run (QueueState.clientStep plainPython) (QueueState.empty 10)
      (oneWrite [problemResponse 400]) = some q ∧ q.dead.length = 1) ∧
    Allowed (QueueState.clientStep plainPython)
      (fun q e => ∀ q', q.clientStep plainPython e = some q' →
        OnlyPermanentBuried plainPython q e q')
      (QueueState.empty 10) (oneWrite [problemResponse 400]) := by
  refine ⟨⟨_, rfl, rfl⟩, (dead_letters_permanent_iff plainPython 10 _ _ rfl).mpr ?_⟩
  refine ⟨trivial, fun _ _ => ⟨trivial, fun _ _ => ⟨trivial, fun _ _ => ⟨?_, fun _ _ => trivial⟩⟩⟩⟩
  intro item last _ hlast _ hm
  rw [List.getLast?_singleton, Option.some.injEq] at hlast
  rw [← hlast] at hm
  rcases hm with ⟨hlt, _⟩ | ⟨_, hrange, _⟩
  · exact absurd hlt (by decide)
  · exact absurd hrange (by decide)

/-- Five replies of an overloaded server, and the write is in `dead` after its
    first send, with nothing left in `pending`. -/
theorem outage_buries_item :
    ∃ q q', run (QueueState.clientStep plainPython) (QueueState.empty 10)
        [.enqueue (insertPayload "a") 0, .flush, .nextDue 1] = some q ∧
      q.clientStep plainPython (.send (List.replicate 5 (problemResponse 503)) 1 0) = some q' ∧
      q'.pending.length = 0 ∧ q'.dead.length = 1 ∧
      ¬ OnlyPermanentBuried plainPython q
        (.send (List.replicate 5 (problemResponse 503)) 1 0) q' := by
  refine ⟨_, _, rfl, rfl, rfl, rfl, fun hrule => ?_⟩
  rcases hrule.kept _ _ rfl rfl rfl (by decide) with ⟨i, hi, _⟩
  exact absurd hi List.not_mem_nil

end CoopDB
