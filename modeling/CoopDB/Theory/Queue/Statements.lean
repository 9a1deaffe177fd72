import CoopDB.Core.QueueProcess
import CoopDB.Lib.Transition

/-!
# What One Statement of the Queue Can Do

The inversion of `QueueProcess.step`. Five kinds of statements change a table,
and stopping the process takes the calls away. Everything else only decides what
a thread does next, and is one case here (`Turns`), with what the results on
crashes and on the size need to know of it.

## Main definitions

* `QueueCall.ids`: The items a call has in hand.
* `QueueProcess.Turns`, `QueueProcess.Taken`: The transitions.
* `QueueProcess.Accounted`: Every id that a table or a call mentions is one of an item
  that was enqueued, an acknowledged item is not pending, and where a call is about to
  delete an item from `pending` the item is in `dead`.

## Theorems

* `QueueProcess.step_taken`: `Taken` is everything a step does.
* `accounted_fresh`, `accounted_step`: `Accounted` holds in every run, with any stops.
-/

namespace CoopDB

/-- The ids of the items a call has in hand. -/
def QueueCall.ids : QueueCall → List Nat
  | .counting _ => []
  | .inserting _ => []
  | .fetching => []
  | .sending item rest => item.id :: rest.map QueueItem.id
  | .acking id rest => id :: (rest.getD []).map QueueItem.id
  | .backingOff item _ => [item.id]
  | .burying item _ rest => item.id :: (rest.getD []).map QueueItem.id
  | .clearing item rest => item.id :: (rest.getD []).map QueueItem.id

/-- What is left of a batch is all that the next step of `flush` has in hand. -/
theorem QueueCall.ids_resume (rest : Option (List QueueItem)) (call : QueueCall)
    (h : QueueCall.resume rest = some call) : call.ids = (rest.getD []).map QueueItem.id := by
  cases rest with
  | none => cases h
  | some batch =>
    cases batch with
    | nil | cons =>
      simp only [resume, Option.some.injEq] at h
      rw [← h]
      rfl

/-- `flush` goes on with a batch or a request for one. -/
theorem QueueCall.resume_ne (rest : Option (List QueueItem)) :
    (∀ p, QueueCall.resume rest ≠ some (.inserting p)) ∧
      ∀ item rest', QueueCall.resume rest ≠ some (.clearing item rest') := by
  cases rest with
  | none => simp [resume]
  | some batch =>
    cases batch with
    | nil | cons => simp [resume]

/-- `fail` has one item in hand, and does not start with a delete or with an
    insert into `pending`. -/
theorem QueueCall.failing_spec (item : QueueItem) (err : String) :
    (QueueCall.failing item err).ids = [item.id] ∧
      (∀ p, QueueCall.failing item err ≠ .inserting p) ∧
      ∀ item' rest, QueueCall.failing item err ≠ .clearing item' rest := by
  unfold QueueCall.failing
  by_cases hmax : item.attempts + 1 ≥ queueMaxAttempts
  · simp [if_pos hmax, ids]
  · simp [if_neg hmax, ids]

namespace QueueProcess

/-- A row of `pending` has the id. -/
def InPending (s : QueueProcess) (id : Nat) : Prop :=
  KeyedList.HasKey QueueItem.id s.pending id

/-- A row of `dead` was made from the item of that id. -/
def InDead (s : QueueProcess) (id : Nat) : Prop :=
  KeyedList.HasKey Prod.fst s.dead id

/-- An item of that id was enqueued. -/
def Knows (s : QueueProcess) (id : Nat) : Prop :=
  KeyedList.HasKey QueueItem.id s.enqueued id

variable {s s' : QueueProcess} {e : QueueAction} {t : Nat} {call : QueueCall}

theorem knows_iff (id : Nat) : s.knows id = true ↔ s.Knows id := by
  simp [knows, Knows, KeyedList.HasKey]

/-- A step that changes no table: the thread does `next` from here on. -/
structure Turns (s : QueueProcess) (e : QueueAction) (t : Nat) (next : Option QueueCall) :
    Prop where
  running : e ≠ .stop
  reads : ∀ t' now delay call, e = .perform t' now delay → s.calls t' = some call →
    (∃ p, call = .counting p) ∨ call = .fetching
  left : ∀ item rest, s.calls t ≠ some (.clearing item rest)
  entered : ∀ item rest, next ≠ some (.clearing item rest)
  counted : ∀ p, next = some (.inserting p) → s.calls t = some (.counting p) ∧
    (s.pending.length : Int) < s.maxSize ∧ ∃ now delay, e = .perform t now delay
  known : ∀ call, next = some call → ∀ id ∈ call.ids,
    s.Knows id ∨ s.InPending id ∨ ∃ old, s.calls t = some old ∧ id ∈ old.ids

/-- The transitions. -/
inductive Taken (s : QueueProcess) : QueueAction → QueueProcess → Prop
  | turned (e : QueueAction) (t : Nat) (next : Option QueueCall) (h : s.Turns e t next) :
      Taken s e (s.turn t next)
  | inserted (t : Nat) (now delay : Time) (p : Payload)
      (hcall : s.calls t = some (.inserting p)) (item : QueueItem)
      (hitem : item = ⟨s.nextID, p, 0, none, now⟩) :
      Taken s (.perform t now delay)
        { s.turn t none with
          pending := s.pending ++ [item], nextID := s.nextID + 1
          enqueued := s.enqueued ++ [item] }
  | acked (t : Nat) (now delay : Time) (id : Nat) (rest : Option (List QueueItem))
      (hcall : s.calls t = some (.acking id rest)) :
      Taken s (.perform t now delay)
        { s.turn t (QueueCall.resume rest) with
          pending := KeyedList.remove QueueItem.id s.pending id, acked := s.acked ++ [id] }
  | backedOff (t : Nat) (now delay : Time) (item : QueueItem) (err : String)
      (hcall : s.calls t = some (.backingOff item err)) :
      Taken s (.perform t now delay)
        { s.turn t none with
          pending := KeyedList.modify QueueItem.id s.pending item.id (fun i =>
            { i with attempts := item.attempts + 1, lastError := some err
                     nextAttemptAt := now + delay }) }
  | buried (t : Nat) (now delay : Time) (item : QueueItem) (err : String)
      (rest : Option (List QueueItem)) (hcall : s.calls t = some (.burying item err rest))
      (row : DeadItem) :
      Taken s (.perform t now delay)
        { s.turn t (some (.clearing item rest)) with dead := s.dead ++ [(item.id, row)] }
  | cleared (t : Nat) (now delay : Time) (item : QueueItem) (rest : Option (List QueueItem))
      (hcall : s.calls t = some (.clearing item rest)) :
      Taken s (.perform t now delay)
        { s.turn t (QueueCall.resume rest) with
          pending := KeyedList.remove QueueItem.id s.pending item.id }
  | stopped : Taken s .stop { s with calls := fun _ => none }

/-- A call that begins is of a thread without one. -/
theorem begin_eq_some (h : s.begin t call = some s') :
    s.calls t = none ∧ s' = s.turn t (some call) := by
  unfold begin at h
  cases hidle : s.calls t with
  | none =>
    simp only [hidle, Option.some.injEq] at h
    exact ⟨rfl, h.symm⟩
  | some => simp only [hidle, reduceCtorEq] at h

/-- Beginning a call changes no table. -/
theorem begin_taken (h : s.begin t call = some s') (hstop : e ≠ .stop)
    (hperform : ∀ t' now delay, e ≠ .perform t' now delay) (hinserting : ∀ p, call ≠ .inserting p)
    (hclearing : ∀ item rest, call ≠ .clearing item rest) (hknown : ∀ id ∈ call.ids, s.Knows id) :
    Taken s e s' := by
  rcases begin_eq_some h with ⟨hidle, rfl⟩
  refine .turned e t (some call) ⟨hstop, ?_, ?_, ?_, ?_, ?_⟩
  · intro t' now delay _ he
    exact absurd he (hperform t' now delay)
  · intro item rest hclear
    rw [hidle] at hclear
    cases hclear
  · intro item rest hclear
    exact hclearing item rest (Option.some.inj hclear)
  · intro p hinsert
    exact absurd (Option.some.inj hinsert) (hinserting p)
  · intro call' hcall' id hid
    rw [← Option.some.inj hcall'] at hid
    exact .inl (hknown id hid)

/-- A statement that only reads, or the sender's answer, leaves the tables. The
    call it comes from is not a delete, and neither is what follows. -/
theorem turned_of_call (hcall : s.calls t = some call) {next : Option QueueCall} (hstop : e ≠ .stop)
    (hreads : ∀ t' now delay, e = .perform t' now delay →
      t' = t ∧ ((∃ p, call = .counting p) ∨ call = .fetching))
    (hleft : ∀ item rest, call ≠ .clearing item rest)
    (hentered : ∀ item rest, next ≠ some (.clearing item rest))
    (hcounted : ∀ p, next = some (.inserting p) → call = .counting p ∧
      (s.pending.length : Int) < s.maxSize ∧ ∃ now delay, e = .perform t now delay)
    (hknown : ∀ call', next = some call' → ∀ id ∈ call'.ids, s.InPending id ∨ id ∈ call.ids) :
    Taken s e (s.turn t next) := by
  refine .turned e t next ⟨hstop, ?_, ?_, hentered, ?_, ?_⟩
  · intro t' now delay call' he hcall'
    rcases hreads t' now delay he with ⟨rfl, hread⟩
    rw [hcall, Option.some.injEq] at hcall'
    exact hcall' ▸ hread
  · intro item rest hclear
    rw [hcall, Option.some.injEq] at hclear
    exact hleft item rest hclear
  · intro p hinsert
    rcases hcounted p hinsert with ⟨rfl, hroom⟩
    exact ⟨hcall, hroom⟩
  · intro call' hcall' id hid
    rcases hknown call' hcall' id hid with hpending | hold
    · exact .inr (.inl hpending)
    · exact .inr (.inr ⟨call, hcall, hold⟩)

/-- The call is over with it. -/
theorem ended_of_call (hcall : s.calls t = some call) (hstop : e ≠ .stop)
    (hreads : ∀ t' now delay, e = .perform t' now delay →
      t' = t ∧ ((∃ p, call = .counting p) ∨ call = .fetching))
    (hleft : ∀ item rest, call ≠ .clearing item rest) : Taken s e (s.turn t none) := by
  refine turned_of_call hcall hstop hreads hleft ?_ ?_ ?_
  · intro item rest
    exact Option.some_ne_none _ ∘ Eq.symm
  · intro p hnext
    cases hnext
  · intro call' hnext
    cases hnext

/-- The next statement of a call is one of the transitions. -/
theorem perform_taken {now delay : Time} {call : QueueCall} (hcall : s.calls t = some call)
    (h : s.perform t now delay call = some s') : Taken s (.perform t now delay) s' := by
  cases call with
  | counting p =>
    have hreads : ∀ t' now' delay', QueueAction.perform t now delay = .perform t' now' delay' →
        t' = t ∧ ((∃ q, QueueCall.counting p = .counting q) ∨
          QueueCall.counting p = .fetching) := by
      intro t' now' delay' he
      injection he with ht
      exact ⟨ht.symm, .inl ⟨p, rfl⟩⟩
    by_cases hfull : (s.pending.length : Int) ≥ s.maxSize
    · simp only [perform, if_pos hfull, Option.some.injEq] at h
      subst h
      refine ended_of_call hcall ?_ hreads ?_
      · simp
      · simp
    · simp only [perform, if_neg hfull, Option.some.injEq] at h
      subst h
      refine turned_of_call hcall ?_ hreads ?_ ?_ ?_ ?_
      · simp
      · simp
      · simp
      · intro q hq
        rw [Option.some.injEq, QueueCall.inserting.injEq] at hq
        exact ⟨congrArg _ hq, Int.not_le.mp hfull, now, delay, rfl⟩
      · intro call' hcall' id hid
        rw [← Option.some.inj hcall'] at hid
        exact absurd hid List.not_mem_nil
  | inserting p =>
    simp only [perform, Option.some.injEq] at h
    subst h
    exact .inserted t now delay p hcall _ rfl
  | fetching =>
    have hreads : ∀ t' now' delay', QueueAction.perform t now delay = .perform t' now' delay' →
        t' = t ∧ ((∃ q, QueueCall.fetching = .counting q) ∨ QueueCall.fetching = .fetching) := by
      intro t' now' delay' he
      injection he with ht
      exact ⟨ht.symm, .inr rfl⟩
    simp only [perform] at h
    split at h
    case h_1 hdue =>
      cases h
      refine ended_of_call hcall ?_ hreads ?_
      · simp
      · simp
    case h_2 item rest hdue =>
      cases h
      refine turned_of_call hcall ?_ hreads ?_ ?_ ?_ ?_
      · simp
      · simp
      · simp
      · simp
      · -- The items of a batch are rows of `pending`.
        intro call' hcall' id hid
        rw [← Option.some.inj hcall'] at hid
        have hids : id ∈ (s.nextDue now flushLimit).map QueueItem.id := by
          rw [hdue, List.map_cons]
          exact hid
        rcases List.mem_map.mp hids with ⟨i, hi, rfl⟩
        exact .inl ⟨i, (List.mem_filter.mp (List.mem_of_mem_take hi)).1, rfl⟩
  | sending => cases h
  | acking id rest =>
    simp only [perform, Option.some.injEq] at h
    subst h
    exact .acked t now delay id rest hcall
  | backingOff item err =>
    simp only [perform, Option.ite_none_right_eq_some, Option.some.injEq] at h
    rcases h with ⟨_, rfl⟩
    exact .backedOff t now delay item err hcall
  | burying item err rest =>
    simp only [perform, Option.some.injEq] at h
    subst h
    exact .buried t now delay item err rest hcall _
  | clearing item rest =>
    simp only [perform, Option.some.injEq] at h
    subst h
    exact .cleared t now delay item rest hcall

/-- What `flush` does with an answer of the sender is one of the transitions. -/
theorem answered_taken (reply : Except Raised Unit) {item : QueueItem} {rest : List QueueItem}
    (hcall : s.calls t = some (.sending item rest)) :
    Taken s (.answer t reply) (s.answered t item rest reply) := by
  have hreads : ∀ t' now delay, QueueAction.answer t reply = .perform t' now delay →
      t' = t ∧ ((∃ p, QueueCall.sending item rest = .counting p) ∨
        QueueCall.sending item rest = .fetching) := by
    intro t' now delay he
    cases he
  -- Every reply turns to a call with items that the old one had in hand.
  have hturn : ∀ next : Option QueueCall, (∀ item rest, next ≠ some (.clearing item rest)) →
      (∀ p, next ≠ some (.inserting p)) →
      (∀ call', next = some call' → ∀ id ∈ call'.ids, id ∈ (QueueCall.sending item rest).ids) →
      Taken s (.answer t reply) (s.turn t next) := by
    intro next hclearing hinserting hids
    refine turned_of_call hcall ?_ hreads ?_ hclearing ?_ ?_
    · simp
    · simp
    · intro p hp
      exact absurd hp (hinserting p)
    · intro call' hcall' id hid
      exact .inr (hids call' hcall' id hid)
  cases reply with
  | ok =>
    refine hturn (some (.acking item.id (some rest))) ?_ ?_ ?_
    · simp
    · simp
    · intro call' hcall' id hid
      rw [← Option.some.inj hcall'] at hid
      exact hid
  | error r =>
    cases r with
    | other =>
      refine hturn none ?_ ?_ ?_ <;> simp
    | api e =>
      by_cases hkind : e.kind = .network
      · simp only [answered, if_pos hkind]
        rcases QueueCall.failing_spec item e.message with ⟨hids, hinserting, hclearing⟩
        refine hturn _ ?_ ?_ ?_
        · exact fun item' rest' h => hclearing item' rest' (Option.some.inj h)
        · exact fun p h => hinserting p (Option.some.inj h)
        · intro call' hcall' id hid
          rw [← Option.some.inj hcall', hids, List.mem_singleton] at hid
          exact hid ▸ List.mem_cons_self
      · simp only [answered, if_neg hkind]
        refine hturn _ ?_ ?_ ?_
        · simp
        · simp
        · intro call' hcall' id hid
          rw [← Option.some.inj hcall'] at hid
          exact hid

/-- `Taken` is everything a step does. -/
theorem step_taken (h : s.step e = some s') : Taken s e s' := by
  cases e with
  | enqueue t | flush t =>
    refine begin_taken h ?_ ?_ ?_ ?_ ?_
    · simp
    · simp
    · simp
    · simp
    · exact fun id hid => absurd hid List.not_mem_nil
  | ack t id =>
    simp only [step, Option.ite_none_right_eq_some] at h
    rcases h with ⟨hknows, h⟩
    refine begin_taken h ?_ ?_ ?_ ?_ ?_
    · simp
    · simp
    · simp
    · simp
    · intro id' hid'
      rw [QueueCall.ids, Option.getD_none, List.map_nil, List.mem_singleton] at hid'
      rw [hid']
      exact (knows_iff id).mp hknows
  | fail t item err =>
    simp only [step, Option.ite_none_right_eq_some] at h
    rcases h with ⟨hknows, h⟩
    rcases QueueCall.failing_spec item err with ⟨hids, hinserting, hclearing⟩
    refine begin_taken h ?_ ?_ hinserting hclearing ?_
    · simp
    · simp
    · intro id hid
      rw [hids, List.mem_singleton] at hid
      rw [hid]
      exact (knows_iff item.id).mp hknows
  | perform t now delay =>
    simp only [step] at h
    cases hcall : s.calls t with
    | none => simp only [hcall, reduceCtorEq] at h
    | some call =>
      simp only [hcall] at h
      exact perform_taken hcall h
  | answer t reply =>
    simp only [step] at h
    split at h
    case h_1 item rest hcall =>
      cases h
      exact answered_taken reply hcall
    case h_2 => cases h
  | stop =>
    simp only [step, Option.some.injEq] at h
    subst h
    exact .stopped

/-- Every id is that of an enqueued item, an acknowledged item is not pending,
    and an item that is about to be deleted as buried is in `dead`. -/
structure Accounted (s : QueueProcess) : Prop where
  below : ∀ i ∈ s.enqueued, i.id < s.nextID
  pending : ∀ id, s.InPending id → s.Knows id
  dead : ∀ id, s.InDead id → s.Knows id
  acked : ∀ id ∈ s.acked, s.Knows id ∧ ¬ s.InPending id
  calls : ∀ t call, s.calls t = some call → ∀ id ∈ call.ids, s.Knows id
  clearing : ∀ t item rest, s.calls t = some (.clearing item rest) → s.InDead item.id

theorem accounted_fresh (maxSize : Int) : (fresh maxSize).Accounted where
  below i hi := absurd hi List.not_mem_nil
  pending id h := by
    rcases h with ⟨i, hi, _⟩
    exact absurd hi List.not_mem_nil
  dead id h := by
    rcases h with ⟨d, hd, _⟩
    exact absurd hd List.not_mem_nil
  acked id h := absurd h List.not_mem_nil
  calls t call h := nomatch h
  clearing t item rest h := nomatch h

/-- An id that is not yet used is in no table. -/
theorem Accounted.unused (h : s.Accounted) : ¬ s.Knows s.nextID := by
  rintro ⟨i, hi, hid⟩
  exact absurd hid (Nat.ne_of_lt (h.below i hi))

/-- The call of a thread after a step in which it turned to `next` is `next`, or
    one it or another thread was at before. -/
theorem calls_of_turn {next : Option QueueCall} {t' : Nat} {call : QueueCall}
    (h : Function.update s.calls t next t' = some call) :
    next = some call ∨ s.calls t' = some call := by
  rw [Function.update_apply] at h
  by_cases ht : t' = t
  · rw [if_pos ht] at h
    exact .inl h
  · rw [if_neg ht] at h
    exact .inr h

/-- What is left of a batch was in the hands of the call before. -/
theorem Accounted.resumed (h : s.Accounted)
    (hcall : s.calls t = some call) {rest : Option (List QueueItem)}
    (hrest : ∀ id ∈ (rest.getD []).map QueueItem.id, id ∈ call.ids) (next : QueueCall)
    (hnext : QueueCall.resume rest = some next) : ∀ id ∈ next.ids, s.Knows id := by
  intro id hid
  rw [QueueCall.ids_resume rest next hnext] at hid
  exact h.calls t call hcall id (hrest id hid)

/-- The update of `fail` leaves the ids. -/
theorem inPending_backedOff (s : QueueProcess) (item : QueueItem) (err : String) (next : Time)
    (id : Nat) :
    KeyedList.HasKey QueueItem.id (KeyedList.modify QueueItem.id s.pending item.id (fun i =>
      { i with attempts := item.attempts + 1, lastError := some err, nextAttemptAt := next })) id ↔
      s.InPending id :=
  KeyedList.hasKey_modify QueueItem.id s.pending item.id id _ (fun _ => rfl)

/-- A thread turns to `next`, and what is enqueued or buried stays so. Then the
    calls are in order if `next` is. -/
theorem Accounted.calls_turn (h : s.Accounted) (s' : QueueProcess) {t : Nat}
    {next : Option QueueCall}
    (hcalls : s'.calls = Function.update s.calls t next) (hknows : ∀ id, s.Knows id → s'.Knows id)
    (hdead : ∀ id, s.InDead id → s'.InDead id)
    (hids : ∀ call, next = some call → ∀ id ∈ call.ids, s'.Knows id)
    (hentered : ∀ item rest, next = some (.clearing item rest) → s'.InDead item.id) :
    (∀ t call, s'.calls t = some call → ∀ id ∈ call.ids, s'.Knows id) ∧
      ∀ t item rest, s'.calls t = some (.clearing item rest) → s'.InDead item.id := by
  rw [hcalls]
  constructor
  · intro t' call hcall id hid
    rcases calls_of_turn hcall with hnext | hold
    · exact hids call hnext id hid
    · exact hknows id (h.calls t' call hold id hid)
  · intro t' item rest hclear
    rcases calls_of_turn hclear with hnext | hold
    · exact hentered item rest hnext
    · exact hdead item.id (h.clearing t' item rest hold)

/-- A step that enqueues, buries and acknowledges nothing keeps the account, if
    no item becomes pending. -/
theorem Accounted.turn (h : s.Accounted) (t : Nat) (next : Option QueueCall)
    (hcalls : s'.calls = Function.update s.calls t next) (hnextID : s'.nextID = s.nextID)
    (henqueued : s'.enqueued = s.enqueued) (hdead : s'.dead = s.dead) (hacked : s'.acked = s.acked)
    (hpending : ∀ id, s'.InPending id → s.InPending id)
    (hids : ∀ call, next = some call → ∀ id ∈ call.ids, s.Knows id)
    (hentered : ∀ item rest, next ≠ some (.clearing item rest)) : s'.Accounted := by
  have hknows : ∀ id, s'.Knows id ↔ s.Knows id := by
    intro id
    rw [Knows, Knows, henqueued]
  have hin : ∀ id, s'.InDead id ↔ s.InDead id := by
    intro id
    rw [InDead, InDead, hdead]
  have hturn := h.calls_turn s' hcalls (fun id => (hknows id).mpr)
    (fun id => (hin id).mpr) (fun call hnext id hid => (hknows id).mpr (hids call hnext id hid))
    (fun item rest hnext => absurd hnext (hentered item rest))
  refine ⟨?_, ?_, ?_, ?_, hturn.1, hturn.2⟩
  · rw [henqueued, hnextID]
    exact h.below
  · exact fun id hid => (hknows id).mpr (h.pending id (hpending id hid))
  · exact fun id hid => (hknows id).mpr (h.dead id ((hin id).mp hid))
  · intro id hid
    rw [hacked] at hid
    exact ⟨(hknows id).mpr (h.acked id hid).1, fun hp => (h.acked id hid).2 (hpending id hp)⟩

/-- A call that is over has nothing in hand. -/
theorem ids_of_none (call : QueueCall) (h : none = some call) : ∀ id ∈ call.ids, s.Knows id :=
  nomatch h

/-- A new item has an id that no table and no call mentions. -/
theorem Accounted.inserted (h : s.Accounted) (t : Nat) (item : QueueItem) (hid : item.id = s.nextID)
    (hcalls : s'.calls = Function.update s.calls t none)
    (hpending : s'.pending = s.pending ++ [item]) (hnextID : s'.nextID = s.nextID + 1)
    (henqueued : s'.enqueued = s.enqueued ++ [item]) (hdead : s'.dead = s.dead)
    (hacked : s'.acked = s.acked) : s'.Accounted := by
  have hknows : ∀ id, s'.Knows id ↔ s.Knows id ∨ item.id = id := by
    intro id
    rw [Knows, henqueued]
    exact KeyedList.hasKey_append QueueItem.id s.enqueued item id
  have hin : ∀ id, s'.InPending id ↔ s.InPending id ∨ item.id = id := by
    intro id
    rw [InPending, hpending]
    exact KeyedList.hasKey_append QueueItem.id s.pending item id
  have hgrow : ∀ id, s.Knows id → s'.Knows id := fun id hold => (hknows id).mpr (.inl hold)
  have hturn := h.calls_turn s' hcalls hgrow
    (fun id hold => by rw [InDead, hdead]; exact hold) ids_of_none
    (fun _ _ hnext => absurd hnext (Option.some_ne_none _ ∘ Eq.symm))
  refine ⟨?_, ?_, ?_, ?_, hturn.1, hturn.2⟩
  · intro i hi
    rw [henqueued] at hi
    rw [hnextID]
    rcases List.mem_append.mp hi with hold | hnew
    · exact Nat.lt_succ_of_lt (h.below i hold)
    · rw [List.mem_singleton.mp hnew, hid]
      exact Nat.lt_succ_self _
  · intro id hmem
    rcases (hin id).mp hmem with hold | hnew
    · exact hgrow id (h.pending id hold)
    · exact (hknows id).mpr (.inr hnew)
  · intro id hmem
    rw [InDead, hdead] at hmem
    exact hgrow id (h.dead id hmem)
  · -- The new id is not one that was acknowledged.
    intro id hmem
    rw [hacked] at hmem
    have hold := h.acked id hmem
    refine ⟨hgrow id hold.1, fun hp => ?_⟩
    rcases (hin id).mp hp with hp | rfl
    · exact hold.2 hp
    · rw [hid] at hold
      exact h.unused hold.1

/-- One step keeps the account. -/
theorem accounted_step (h : s.Accounted) (hs : s.step e = some s') :
    s'.Accounted := by
  cases step_taken hs with
  | turned e t next hturn =>
    refine h.turn t next rfl rfl rfl rfl rfl (fun _ hin => hin) ?_ hturn.entered
    intro call hnext id hid
    rcases hturn.known call hnext id hid with hknows | hpending | ⟨old, hold, hid'⟩
    · exact hknows
    · exact h.pending id hpending
    · exact h.calls t old hold id hid'
  | inserted t now delay p hcall item hitem =>
    exact h.inserted t item (by rw [hitem]) rfl rfl rfl rfl rfl rfl
  | acked t now delay id rest hcall =>
    have hremove := KeyedList.hasKey_remove QueueItem.id s.pending id
    have hturn := h.calls_turn (s.turn t (QueueCall.resume rest)) rfl (fun _ hk => hk)
      (fun _ hd => hd) (h.resumed hcall (fun _ => List.mem_cons_of_mem _))
      (fun item rest' hnext => absurd hnext ((QueueCall.resume_ne rest).2 item rest'))
    refine ⟨h.below, fun id' hin => h.pending id' ((hremove id').mp hin).1, h.dead, ?_,
      hturn.1, hturn.2⟩
    intro id' hacked
    rcases List.mem_append.mp hacked with hold | hnew
    · exact ⟨(h.acked id' hold).1, fun hin => (h.acked id' hold).2 ((hremove id').mp hin).1⟩
    · -- The acknowledged item was in the hands of the call, and is deleted here.
      rw [List.mem_singleton.mp hnew]
      exact ⟨h.calls t _ hcall id List.mem_cons_self, fun hin => ((hremove id).mp hin).2 rfl⟩
  | backedOff t now delay item err =>
    have hmodify := s.inPending_backedOff item err (now + delay)
    exact h.turn t none rfl rfl rfl rfl rfl (fun id hin => (hmodify id).mp hin)
      ids_of_none (fun _ _ => Option.some_ne_none _ ∘ Eq.symm)
  | buried t now delay item err rest hcall row =>
    have happend := KeyedList.hasKey_append Prod.fst s.dead (item.id, row)
    have hhand := h.calls t _ hcall
    have hturn := h.calls_turn
      { s.turn t (some (.clearing item rest)) with dead := s.dead ++ [(item.id, row)] } rfl
      (fun _ hk => hk) (fun id hd => (happend id).mpr (.inl hd)) ?_ ?_
    · refine ⟨h.below, h.pending, ?_, h.acked, hturn.1, hturn.2⟩
      intro id hin
      rcases (happend id).mp hin with hold | hnew
      · exact h.dead id hold
      · exact hnew ▸ hhand item.id List.mem_cons_self
    · intro call hnext id hid
      rw [← Option.some.inj hnext] at hid
      exact hhand id hid
    · -- The call that has just inserted goes on to delete.
      intro item' rest' hnext
      rw [Option.some.injEq, QueueCall.clearing.injEq] at hnext
      exact (happend item'.id).mpr (.inr (congrArg QueueItem.id hnext.1))
  | cleared t now delay item rest hcall =>
    have hremove := KeyedList.hasKey_remove QueueItem.id s.pending item.id
    exact h.turn t _ rfl rfl rfl rfl rfl (fun id hin => ((hremove id).mp hin).1)
      (h.resumed hcall (fun _ => List.mem_cons_of_mem _)) (QueueCall.resume_ne rest).2
  | stopped =>
    refine ⟨h.below, h.pending, h.dead, h.acked, ?_, ?_⟩
    · intro t call hcall
      cases hcall
    · intro t item rest hclear
      cases hclear

end QueueProcess

/-- A write, for runs on a fixed input. -/
def firstWrite : Payload :=
  { sql := "INSERT INTO t VALUES (1)", params := [], idempotencyKey := "k1" }

end CoopDB
