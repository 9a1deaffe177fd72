import CoopDB.Theory.Queue.Statements

/-!
# A Queue Whose Process Stops

Moving an item to `dead` is an insert and then a delete, each committed on its
own. In between the item is in both tables. A process that stops there leaves it
so, and a later `flush` sends a write again that the dead-letter table already
has.

The file is looked at in two ways, after every statement, and without the items that
a live call is about to delete. Both conditions are exact, over every interleaving of
the statements of any number of calls, and any number of stops.

## Main definitions

* `QueueProcess.Unsplit`: Every item that was not acknowledged is in exactly one table.
* `QueueProcess.Moving`, `QueueProcess.UnsplitAtRest`: The same, but for the items that a
  call is about to delete.
* `QueueProcess.BuriesPending`, `QueueProcess.StopsBetween`: The steps that split: moving
  a pending item, and a stop between the two statements.

## Theorems

* `unsplit_step_iff`, `unsplitAtRest_step_iff`: One step splits exactly if it is such.
* `crash_unsplit_iff`: A run never splits exactly if it has no such step.
* `no_item_lost`: Whatever is split, no interleaving loses an item.
* `split_by_crash`: A process that stops between the two statements.
-/

namespace CoopDB

open Transition (run Always Allowed)

namespace QueueProcess

/-- Every enqueued item that was not acknowledged is in exactly one of the two
    tables. -/
def Unsplit (s : QueueProcess) : Prop :=
  ∀ id, s.Knows id → id ∉ s.acked → (s.InPending id ↔ ¬ s.InDead id)

/-- A call has inserted the item into `dead` and is about to delete it from
    `pending`. -/
def Moving (s : QueueProcess) (id : Nat) : Prop :=
  ∃ t item rest, s.calls t = some (.clearing item rest) ∧ item.id = id

/-- Every enqueued item that was not acknowledged, and that no call is about to
    delete, is in exactly one of the two tables. -/
def UnsplitAtRest (s : QueueProcess) : Prop :=
  ∀ id, s.Knows id → id ∉ s.acked → ¬ s.Moving id → (s.InPending id ↔ ¬ s.InDead id)

/-- The step inserts an item into `dead` that is pending. -/
def BuriesPending (s : QueueProcess) : QueueAction → Prop
  | .perform t _ _ => ∃ item err rest, s.calls t = some (.burying item err rest) ∧
      s.InPending item.id
  | _ => False

/-- The process stops while a call is about to delete an item from `pending`
    that it has inserted into `dead`. -/
def StopsBetween (s : QueueProcess) : QueueAction → Prop
  | .stop => ∃ t item rest, s.calls t = some (.clearing item rest) ∧ s.InPending item.id
  | _ => False

/-- The step inserts the item into `dead`. -/
def Buries (s : QueueProcess) (id : Nat) : QueueAction → Prop
  | .perform t _ _ => ∃ item err rest, s.calls t = some (.burying item err rest) ∧ item.id = id
  | _ => False

/-- The step deletes the item from `pending` that is in `dead`. -/
def Clears (s : QueueProcess) (id : Nat) : QueueAction → Prop
  | .perform t _ _ => ∃ item rest, s.calls t = some (.clearing item rest) ∧ item.id = id
  | _ => False

variable (s : QueueProcess) (e : QueueAction) (s' : QueueProcess)

/-- What was acknowledged stays so. -/
theorem acked_step (hs : s.step e = some s') {id : Nat} (h : id ∉ s'.acked) : id ∉ s.acked := by
  cases step_taken hs with
  | acked => exact fun hin => h (List.mem_append_left _ hin)
  | _ => exact h

/-- After a step that does not insert it into `dead`, an item is in exactly one
    table if it was before, or if the step deletes it. -/
theorem exact_step (h : s.Accounted) (hs : s.step e = some s') {id : Nat} (hknows : s'.Knows id)
    (hacked : id ∉ s'.acked) (hburies : ¬ s.Buries id e)
    (hbefore : s.Knows id → ¬ s.Clears id e → (s.InPending id ↔ ¬ s.InDead id)) :
    s'.InPending id ↔ ¬ s'.InDead id := by
  have hclears : ∀ t now delay call, s.calls t = some call →
      (∀ item rest, call = .clearing item rest → item.id ≠ id) →
      ¬ s.Clears id (.perform t now delay) := by
    rintro t now delay call hcall hother ⟨item, rest, hclear, hid⟩
    exact hother item rest (Option.some.inj (hcall.symm.trans hclear)) hid
  cases step_taken hs with
  | turned e t next hturn =>
    refine hbefore hknows ?_
    cases e with
    | perform t' now delay =>
      rintro ⟨item, rest, hclear, _⟩
      rcases hturn.reads t' now delay _ rfl hclear with ⟨p, hp⟩ | hf
      · cases hp
      · cases hf
    | _ => exact not_false
  | inserted t now delay p hcall item hitem =>
    have hid : item.id = s.nextID := by rw [hitem]
    have happend := KeyedList.hasKey_append QueueItem.id s.pending item id
    rcases (KeyedList.hasKey_append QueueItem.id _ _ _).mp hknows with hold | hnew
    · have hne : ¬ item.id = id := fun hid' => h.unused (hid ▸ hid' ▸ hold)
      have hexact := hbefore hold (hclears t now delay _ hcall (by simp))
      exact (happend.trans (or_iff_left hne)).trans hexact
    · -- No row of `dead` has the new id.
      exact iff_of_true (happend.mpr (.inr hnew))
        (fun hdead => h.unused (hid ▸ hnew ▸ h.dead id hdead))
  | acked t now delay id' rest hcall =>
    have hne : id ≠ id' := by
      intro hid
      exact hacked (List.mem_append_right _ (hid ▸ List.mem_cons_self))
    have hexact := hbefore hknows (hclears t now delay _ hcall (by simp))
    have hremove := KeyedList.hasKey_remove QueueItem.id s.pending id' id
    exact (hremove.trans (and_iff_left hne)).trans hexact
  | backedOff t now delay item err hcall =>
    have hexact := hbefore hknows (hclears t now delay _ hcall (by simp))
    exact (s.inPending_backedOff item err (now + delay) id).trans hexact
  | buried t now delay item err rest hcall row =>
    have hne : ¬ item.id = id := fun hid => hburies ⟨item, err, rest, hcall, hid⟩
    have hexact := hbefore hknows (hclears t now delay _ hcall (by simp))
    have happend := KeyedList.hasKey_append Prod.fst s.dead (item.id, row) id
    exact hexact.trans (not_congr (happend.trans (or_iff_left hne))).symm
  | cleared t now delay item rest hcall =>
    have hremove := KeyedList.hasKey_remove QueueItem.id s.pending item.id id
    by_cases hid : id = item.id
    · have hdead : s.InDead id := hid ▸ h.clearing t item rest hcall
      exact iff_of_false (fun hin => (hremove.mp hin).2 hid) (not_not_intro hdead)
    · have hother : ∀ item' rest', QueueCall.clearing item rest = .clearing item' rest' →
          item'.id ≠ id := by
        intro item' rest' heq hid'
        injection heq with hitem
        exact hid (hitem ▸ hid'.symm)
      have hexact := hbefore hknows (hclears t now delay _ hcall hother)
      exact (hremove.trans (and_iff_left hid)).trans hexact
  | stopped => exact hbefore hknows not_false

/-- An item that is pending and in `dead` was not acknowledged. -/
theorem Accounted.not_acked (h : s.Accounted) (id : Nat) (hpending : s.InPending id) :
    id ∉ s.acked :=
  fun hacked => (h.acked id hacked).2 hpending

/-- An insert into `dead`, with what it leaves. -/
theorem buries_step (hs : s.step e = some s') {id : Nat} (h : s.Buries id e) :
    (s'.InPending id ↔ s.InPending id) ∧ s'.InDead id ∧ s'.Moving id := by
  cases e with
  | perform t =>
    rcases h with ⟨item, err, rest, hcall, rfl⟩
    simp only [step, hcall, perform, Option.some.injEq] at hs
    subst hs
    refine ⟨Iff.rfl, (KeyedList.hasKey_append Prod.fst _ _ _).mpr (.inr rfl), ?_⟩
    exact ⟨t, item, rest, Function.update_self _ _ _, rfl⟩
  | _ => exact absurd h not_false

/-- A step keeps every item in exactly one table exactly when it moves no pending
    item to `dead`. -/
theorem unsplit_step_iff (h : s.Accounted) (hu : s.Unsplit) (hs : s.step e = some s') :
    s'.Unsplit ↔ ¬ s.BuriesPending e := by
  have h' := accounted_step h hs
  constructor
  · intro hafter hbad
    cases e with
    | perform =>
      rcases hbad with ⟨item, err, rest, hcall, hpending⟩
      rcases s.buries_step _ s' hs ⟨item, err, rest, hcall, rfl⟩ with ⟨hin, hdead, _⟩
      have hpending' := hin.mpr hpending
      exact (hafter item.id (h'.pending _ hpending') (h'.not_acked s' _ hpending')).mp hpending'
        hdead
    | _ => exact absurd hbad not_false
  · intro hnot id hknows hacked
    by_cases hburies : s.Buries id e
    · -- The item was not pending, and now it is in `dead`.
      have hpending : ¬ s.InPending id := by
        intro hin
        cases e with
        | perform =>
          rcases hburies with ⟨item, err, rest, hcall, rfl⟩
          exact hnot ⟨item, err, rest, hcall, hin⟩
        | _ => exact absurd hburies not_false
      rcases s.buries_step e s' hs hburies with ⟨hin, hdead, _⟩
      exact iff_of_false (fun hin' => hpending (hin.mp hin')) (not_not_intro hdead)
    · exact exact_step s e s' h hs hknows hacked hburies
        (fun hknows' _ => hu id hknows' (acked_step s e s' hs hacked))

/-- A call that is about to delete an item is still about to after a step that
    is neither the delete nor a stop. -/
theorem moving_step (hs : s.step e = some s') (id : Nat) (h : s.Moving id) (hstop : e ≠ .stop)
    (hclears : ¬ s.Clears id e) : s'.Moving id := by
  rcases h with ⟨t, item, rest, hcall, rfl⟩
  have hkept : ∀ t' next, t ≠ t' →
      Function.update s.calls t' next t = some (.clearing item rest) := by
    intro t' next hne
    rw [Function.update_of_ne hne]
    exact hcall
  have hother : ∀ t' call, s.calls t' = some call → (∀ item rest, call ≠ .clearing item rest) →
      t ≠ t' := by
    rintro t' call hcall' hne rfl
    exact hne item rest (Option.some.inj (hcall'.symm.trans hcall))
  cases step_taken hs with
  | turned e t' next hturn =>
    have hne : t ≠ t' := fun ht => hturn.left item rest (ht ▸ hcall)
    exact ⟨t, item, rest, hkept t' next hne, rfl⟩
  | inserted t' now delay p hcall' =>
    have hne := hother t' _ hcall' (by simp)
    exact ⟨t, item, rest, hkept t' none hne, rfl⟩
  | acked t' now delay id' rest' hcall' =>
    have hne := hother t' _ hcall' (by simp)
    exact ⟨t, item, rest, hkept t' _ hne, rfl⟩
  | backedOff t' now delay item' err hcall' =>
    have hne := hother t' _ hcall' (by simp)
    exact ⟨t, item, rest, hkept t' none hne, rfl⟩
  | buried t' now delay item' err rest' hcall' =>
    have hne := hother t' _ hcall' (by simp)
    exact ⟨t, item, rest, hkept t' _ hne, rfl⟩
  | cleared t' =>
    have hne : t ≠ t' := fun ht => hclears ⟨item, rest, ht ▸ hcall, rfl⟩
    exact ⟨t, item, rest, hkept t' _ hne, rfl⟩
  | stopped => exact absurd rfl hstop

/-- A step keeps every item that no call is about to delete in exactly one table
    exactly when it does not stop a call between its two statements. -/
theorem unsplitAtRest_step_iff (h : s.Accounted) (hu : s.UnsplitAtRest) (hs : s.step e = some s') :
    s'.UnsplitAtRest ↔ ¬ s.StopsBetween e := by
  by_cases hstop : e = .stop
  · subst hstop
    simp only [step, Option.some.injEq] at hs
    subst hs
    have hidle : ∀ id, ¬ Moving { s with calls := fun _ => none } id := by
      rintro id ⟨t, item, rest, hcall, _⟩
      cases hcall
    constructor
    · rintro hafter ⟨t, item, rest, hcall, hpending⟩
      have hexact := hafter item.id (h.pending _ hpending) (h.not_acked s _ hpending) (hidle _)
      exact hexact.mp hpending (h.clearing t item rest hcall)
    · intro hnot id hknows hacked _
      by_cases hmoving : s.Moving id
      · -- The item is in `dead`, and the delete that was still to come had nothing to do.
        rcases hmoving with ⟨t, item, rest, hcall, rfl⟩
        exact iff_of_false (fun hin => hnot ⟨t, item, rest, hcall, hin⟩)
          (not_not_intro (h.clearing t item rest hcall))
      · exact hu id hknows hacked hmoving
  · have hnot : ¬ s.StopsBetween e := by
      cases e with
      | stop => exact absurd rfl hstop
      | _ => exact not_false
    refine ⟨fun _ => hnot, fun _ id hknows hacked hrest => ?_⟩
    have hburies : ¬ s.Buries id e := fun hb => hrest (s.buries_step e s' hs hb).2.2
    refine exact_step s e s' h hs hknows hacked hburies fun hknows' hclears => ?_
    exact hu id hknows' (acked_step s e s' hs hacked)
      (fun hmoving => hrest (moving_step s e s' hs id hmoving hstop hclears))

/-- An event that cannot be taken breaks nothing. -/
theorem not_buriesPending_of_none (h : s.step e = none) : ¬ s.BuriesPending e := by
  cases e with
  | perform =>
    rintro ⟨item, err, rest, hcall, _⟩
    simp only [step, hcall, perform, reduceCtorEq] at h
  | _ => exact not_false

theorem not_stopsBetween_of_none (h : s.step e = none) : ¬ s.StopsBetween e := by
  cases e with
  | stop => cases h
  | _ => exact not_false

end QueueProcess

open QueueProcess (fresh Unsplit UnsplitAtRest BuriesPending StopsBetween)

/-- Over every run, from a new file, of any number of calls with their
    statements in any order and with any number of stops. The file has each item
    that was not acknowledged in exactly one table after every step exactly when
    no statement inserts a pending item into `dead`. Without the items that a
    live call is about to delete, it does so exactly when the process is never
    stopped between the two statements of such a move. -/
theorem crash_unsplit_iff (maxSize : Int) (es : List QueueAction) :
    (Always QueueProcess.step Unsplit (fresh maxSize) es ↔
      Allowed QueueProcess.step (fun s e => ¬ s.BuriesPending e) (fresh maxSize) es) ∧
    (Always QueueProcess.step UnsplitAtRest (fresh maxSize) es ↔
      Allowed QueueProcess.step (fun s e => ¬ s.StopsBetween e) (fresh maxSize) es) := by
  have hstart := QueueProcess.accounted_fresh maxSize
  have hempty : ∀ id, ¬ (fresh maxSize).Knows id := by
    rintro id ⟨i, hi, _⟩
    exact absurd hi List.not_mem_nil
  constructor
  · refine Transition.always_iff_allowed_of_steps QueueProcess.Accounted Unsplit
      ?_ (fun s e _ _ hnone => s.not_buriesPending_of_none e hnone) es _ hstart
      (fun id hknows => absurd hknows (hempty id))
    intro s e s' h hu hs
    exact ⟨QueueProcess.accounted_step h hs, QueueProcess.unsplit_step_iff s e s' h hu hs⟩
  · refine Transition.always_iff_allowed_of_steps QueueProcess.Accounted
      UnsplitAtRest ?_ (fun s e _ _ hnone => s.not_stopsBetween_of_none e hnone) es _ hstart
      (fun id hknows => absurd hknows (hempty id))
    intro s e s' h hu hs
    exact ⟨QueueProcess.accounted_step h hs, QueueProcess.unsplitAtRest_step_iff s e s' h hu hs⟩

/-- One item is enqueued, `flush` sends it, the server rejects it, and the
    process stops after the insert into `dead`. The file then has the item in
    both tables, and the next process hands it to the sender again. -/
theorem split_by_crash :
    ∃ s s', run QueueProcess.step (fresh 10)
      [.enqueue 0 firstWrite, .perform 0 0 0, .perform 0 0 0, .flush 0, .perform 0 1 0,
       .answer 0 (.error (.api
        { kind := .validation, message := "syntax error", status := some 400, problem := [] })),
       .perform 0 1 0, .stop] = some s ∧
      s.Knows 1 ∧ 1 ∉ s.acked ∧ s.InPending 1 ∧ s.InDead 1 ∧
      run QueueProcess.step s [.flush 0, .perform 0 2 0] = some s' ∧
      ∃ item rest, s'.calls 0 = some (.sending item rest) ∧ item.id = 1 := by
  refine ⟨_, _, rfl, ?_, ?_, ?_, ?_, rfl, _, _, rfl, rfl⟩
  · exact ⟨_, List.mem_cons_self, rfl⟩
  · exact List.not_mem_nil
  · exact ⟨_, List.mem_cons_self, rfl⟩
  · exact ⟨_, List.mem_cons_self, rfl⟩

/-- Every enqueued item is in a table or was acknowledged. -/
def QueueProcess.Lossless (s : QueueProcess) : Prop :=
  ∀ id, s.Knows id → s.InPending id ∨ s.InDead id ∨ id ∈ s.acked

/-- No statement loses an item. -/
theorem QueueProcess.lossless_step (s : QueueProcess) (e : QueueAction) (s' : QueueProcess)
    (h : s.Accounted) (hl : s.Lossless) (hs : s.step e = some s') : s'.Lossless := by
  intro id hknows
  cases step_taken hs with
  | turned | stopped => exact hl id hknows
  | inserted t now delay p hcall item hitem =>
    rcases (KeyedList.hasKey_append QueueItem.id _ _ _).mp hknows with hold | hnew
    · exact (hl id hold).imp_left fun hin =>
        (KeyedList.hasKey_append QueueItem.id s.pending item id).mpr (.inl hin)
    · exact .inl ((KeyedList.hasKey_append QueueItem.id s.pending item id).mpr (.inr hnew))
  | acked t now delay id' rest hcall =>
    by_cases hid : id = id'
    · exact .inr (.inr (List.mem_append_right _ (hid ▸ List.mem_cons_self)))
    · rcases hl id hknows with hin | hdead | hacked
      · exact .inl ((KeyedList.hasKey_remove QueueItem.id s.pending id' id).mpr ⟨hin, hid⟩)
      · exact .inr (.inl hdead)
      · exact .inr (.inr (List.mem_append_left _ hacked))
  | backedOff t now delay item err hcall =>
    exact (hl id hknows).imp_left (s.inPending_backedOff item err (now + delay) id).mpr
  | buried t now delay item err rest hcall row =>
    exact (hl id hknows).imp_right fun hrest => hrest.imp_left fun hdead =>
      (KeyedList.hasKey_append Prod.fst s.dead (item.id, row) id).mpr (.inl hdead)
  | cleared t now delay item rest hcall =>
    by_cases hid : id = item.id
    · -- The row of `dead` was written before.
      exact .inr (.inl (hid ▸ h.clearing t item rest hcall))
    · exact (hl id hknows).imp_left fun hin =>
        (KeyedList.hasKey_remove QueueItem.id s.pending item.id id).mpr ⟨hin, hid⟩

/-- Any number of threads enqueue, flush, acknowledge and fail items, with their
    statements in any order and with any number of stops. Every enqueued item is then
    pending, in `dead` or acknowledged, every row of the tables is of an enqueued item,
    and no acknowledged item is pending again. -/
theorem no_item_lost (maxSize : Int) (es : List QueueAction) (s : QueueProcess)
    (hrun : run QueueProcess.step (fresh maxSize) es = some s) :
    s.Lossless ∧ (∀ id, s.InPending id ∨ s.InDead id → s.Knows id) ∧
      ∀ id ∈ s.acked, ¬ s.InPending id := by
  have hboth := Transition.run_kept (fun s => s.Accounted ∧ s.Lossless)
    ⟨QueueProcess.accounted_fresh maxSize, fun id ⟨_, hi, _⟩ => nomatch hi⟩
    (fun t e t' hI hs => ⟨QueueProcess.accounted_step hI.1 hs,
      t.lossless_step e t' hI.1 hI.2 hs⟩) hrun
  exact ⟨hboth.2, fun id hin => hin.elim (hboth.1.pending id) (hboth.1.dead id),
    fun id hacked => (hboth.1.acked id hacked).2⟩

/-- Two threads send one item, one of them has acknowledged it, and the process stops
    before the other does. -/
theorem item_sent_twice_not_lost :
    ∃ s, run QueueProcess.step (fresh 10)
        [.enqueue 0 firstWrite, .perform 0 0 0, .perform 0 0 0, .flush 0, .flush 1,
         .perform 0 1 0, .perform 1 1 0, .answer 0 (.ok ()), .perform 0 1 0,
         .answer 1 (.ok ()), .stop] = some s ∧
      (s.InPending 1 ∨ s.InDead 1 ∨ 1 ∈ s.acked) ∧ ¬ s.InPending 1 := by
  have h := no_item_lost 10 [.enqueue 0 firstWrite, .perform 0 0 0, .perform 0 0 0, .flush 0,
    .flush 1, .perform 0 1 0, .perform 1 1 0, .answer 0 (.ok ()), .perform 0 1 0,
    .answer 1 (.ok ()), .stop] _ rfl
  exact ⟨_, rfl, h.1 1 ⟨_, List.mem_cons_self, rfl⟩, h.2.2 1 List.mem_cons_self⟩

end CoopDB
