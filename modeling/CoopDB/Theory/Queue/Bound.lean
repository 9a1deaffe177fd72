import CoopDB.Theory.Queue.Statements

/-!
# The Size of the Queue Under Threads

`enqueue` counts the rows of `pending` and inserts one if there are fewer than
`max_size`. The two are statements of their own, and the class promises to be
safe under the threads of one process. But two calls that both count before
either inserts both find room for one more row.

The bound holds as long as every insert still finds the room that the count before it
found, whatever the calls of `flush` do in the meantime: they only take rows out.

## Main definitions

* `QueueProcess.Overfills`: The step inserts into a full table.
* `QueueProcess.CountsAlone`: The step is not a count while another call is about to
  insert.
* `QueueProcess.Reserved`: There is room for the one call that is about to insert.

## Theorems

* `pending_length_step`: What a step does to the number of rows.
* `reserved_step`: While counts are alone there is room.
* `queue_bound_iff`: A run keeps the bound exactly if no step overfills. It is enough that
  counts are alone.
* `queue_overfilled`: Two threads and room for one row.
-/

namespace CoopDB

open Transition (run Always Allowed)

namespace QueueProcess

/-- The step inserts into `pending` while it has no room. -/
def Overfills (s : QueueProcess) : QueueAction → Prop
  | .perform t _ _ => (∃ p, s.calls t = some (.inserting p)) ∧ (s.pending.length : Int) ≥ s.maxSize
  | _ => False

/-- The step does not count for an `enqueue` while another call has counted and
    not inserted yet. -/
def CountsAlone (s : QueueProcess) : QueueAction → Prop
  | .perform t _ _ => ∀ p, s.calls t = some (.counting p) →
      ∀ t' p', s.calls t' ≠ some (.inserting p')
  | _ => True

variable (s : QueueProcess) (e : QueueAction)

/-- Only an insert that finds the table full takes it over its limit, and the
    limit stays as it is. -/
theorem pending_length_step (s' : QueueProcess) (hfits : (s.pending.length : Int) ≤ s.maxSize)
    (hs : s.step e = some s') : s'.maxSize = s.maxSize ∧
      ((s'.pending.length : Int) ≤ s'.maxSize ↔ ¬ s.Overfills e) := by
  -- Only an insert can overfill, and only an insert makes the table longer.
  have hother : ∀ t now delay call, s.calls t = some call → (∀ p, call ≠ .inserting p) →
      ¬ s.Overfills (.perform t now delay) := by
    rintro t now delay call hcall hne ⟨⟨p, hp⟩, _⟩
    exact hne p (Option.some.inj (hcall.symm.trans hp))
  have hshorter :
      ∀ id, ((KeyedList.remove QueueItem.id s.pending id).length : Int) ≤ s.maxSize := by
    intro id
    exact Int.le_trans (Int.ofNat_le.mpr (List.length_filter_le _ _)) hfits
  cases step_taken hs with
  | turned e t next hturn =>
    refine ⟨rfl, fun _ => ?_, fun _ => hfits⟩
    cases e with
    | perform t' now delay =>
      rintro ⟨⟨p, hp⟩, _⟩
      rcases hturn.reads t' now delay _ rfl hp with ⟨q, hq⟩ | hf
      · cases hq
      · cases hf
    | _ => exact not_false
  | inserted t now delay p hcall item =>
    refine ⟨rfl, ?_⟩
    have hlength : (s.pending ++ [item]).length = s.pending.length + 1 := List.length_append
    constructor
    · rintro hafter ⟨_, hfull⟩
      have hafter' : ((s.pending ++ [item]).length : Int) ≤ s.maxSize := hafter
      rw [hlength] at hafter'
      omega
    · intro hroom
      have hnot : ¬ (s.pending.length : Int) ≥ s.maxSize := fun hfull => hroom ⟨⟨p, hcall⟩, hfull⟩
      show ((s.pending ++ [item]).length : Int) ≤ s.maxSize
      rw [hlength]
      omega
  | acked t now delay id rest hcall =>
    exact ⟨rfl, fun _ => hother t now delay _ hcall (by simp), fun _ => hshorter id⟩
  | backedOff t now delay item err hcall =>
    refine ⟨rfl, fun _ => hother t now delay _ hcall (by simp), fun _ => ?_⟩
    show ((List.map _ s.pending).length : Int) ≤ s.maxSize
    rw [List.length_map]
    exact hfits
  | buried t now delay item err rest hcall =>
    exact ⟨rfl, fun _ => hother t now delay _ hcall (by simp), fun _ => hfits⟩
  | cleared t now delay item rest hcall =>
    exact ⟨rfl, fun _ => hother t now delay _ hcall
      (by simp),
      fun _ => hshorter item.id⟩
  | stopped => exact ⟨rfl, fun _ => not_false, fun _ => hfits⟩

/-- At most one call is about to insert, and there is room for its row. -/
structure Reserved (s : QueueProcess) : Prop where
  room : ∀ t p, s.calls t = some (.inserting p) → (s.pending.length : Int) < s.maxSize
  single : ∀ t t' p p', s.calls t = some (.inserting p) → s.calls t' = some (.inserting p') → t = t'

/-- A step that takes no call to its insert and does not insert itself keeps
    the room. -/
theorem Reserved.kept {s' : QueueProcess} (h : s.Reserved)
    (hcalls : ∀ t p, s'.calls t = some (.inserting p) → s.calls t = some (.inserting p))
    (hlength : s'.pending.length ≤ s.pending.length) (hmax : s'.maxSize = s.maxSize) :
    s'.Reserved where
  room t p hcall := by
    rw [hmax]
    exact Int.lt_of_le_of_lt (Int.ofNat_le.mpr hlength) (h.room t p (hcalls t p hcall))
  single t t' p p' hcall hcall' := h.single t t' p p' (hcalls t p hcall) (hcalls t' p' hcall')

/-- While no call counts next to one that is about to insert, there is room for
    the insert. -/
theorem reserved_step (s' : QueueProcess) (h : s.Reserved) (halone : s.CountsAlone e)
    (hs : s.step e = some s') : s'.Reserved := by
  have hresumed : ∀ t rest t' p,
      Function.update s.calls t (QueueCall.resume rest) t' = some (.inserting p) →
        s.calls t' = some (.inserting p) := by
    intro t rest t' p hcall
    rcases calls_of_turn hcall with hnext | hold
    · exact absurd hnext ((QueueCall.resume_ne rest).1 p)
    · exact hold
  have hended : ∀ t t' p, Function.update s.calls t none t' = some (.inserting p) →
      s.calls t' = some (.inserting p) := fun t => hresumed t none
  cases step_taken hs with
  | turned e t next hturn =>
    by_cases hinsert : ∃ p, next = some (.inserting p)
    · -- The call has counted, and it is the only one about to insert.
      rcases hinsert with ⟨p, hp⟩
      rcases hturn.counted p hp with ⟨hcall, hroom, now, delay, rfl⟩
      have hnone := halone p hcall
      have hself : ∀ t' p', Function.update s.calls t next t' = some (.inserting p') → t' = t := by
        intro t' p' hcall'
        by_contra hne
        rw [Function.update_of_ne hne] at hcall'
        exact hnone t' p' hcall'
      exact ⟨fun _ _ _ => hroom,
        fun t₁ t₂ p₁ p₂ h₁ h₂ => (hself t₁ p₁ h₁).trans (hself t₂ p₂ h₂).symm⟩
    · refine h.kept s (fun t' p hcall => ?_) (Nat.le_refl _) rfl
      rcases calls_of_turn hcall with hnext | hold
      · exact absurd ⟨p, hnext⟩ hinsert
      · exact hold
  | inserted t now delay p hcall =>
    -- The call that inserts was the only one, so nothing has to be kept for another.
    have hno : ∀ t' p', Function.update s.calls t none t' ≠ some (.inserting p') := by
      intro t' p' hcall'
      have htt := h.single t' t p' p (hended t t' p' hcall') hcall
      rw [htt, Function.update_self] at hcall'
      cases hcall'
    exact ⟨fun t' p' hcall' => absurd hcall' (hno t' p'),
      fun t' _ p' _ hcall' _ => absurd hcall' (hno t' p')⟩
  | acked t now delay id rest => exact h.kept s (hresumed t rest) (List.length_filter_le _ _) rfl
  | backedOff t => exact h.kept s (hended t) (Nat.le_of_eq (List.length_map _)) rfl
  | buried t =>
    refine h.kept s (fun t' p hcall' => ?_) (Nat.le_refl _) rfl
    rcases calls_of_turn hcall' with hnext | hold
    · cases hnext
    · exact hold
  | cleared t now delay item rest =>
    exact h.kept s (hresumed t rest) (List.length_filter_le _ _) rfl
  | stopped =>
    refine h.kept s (fun t p hcall => ?_) (Nat.le_refl _) rfl
    cases hcall

/-- With room for the one call that is about to insert, no insert overfills. -/
theorem Reserved.not_overfills (h : s.Reserved) : ¬ s.Overfills e := by
  cases e with
  | perform t =>
    rintro ⟨⟨p, hp⟩, hfull⟩
    exact absurd hfull (Int.not_le.mpr (h.room t p hp))
  | _ => exact not_false

/-- An insert can always be run. -/
theorem not_overfills_of_none (h : s.step e = none) : ¬ s.Overfills e := by
  cases e with
  | perform =>
    rintro ⟨⟨p, hp⟩, _⟩
    simp only [step, hp, perform, reduceCtorEq] at h
  | _ => exact not_false

end QueueProcess

open QueueProcess (fresh Overfills CountsAlone)

/-- Over every run of any number of calls, with their statements in any order:
    `pending` never has more than `maxSize` rows exactly when the limit is not
    negative and no insert is run while the table is full. It is enough that no
    call of `enqueue` counts while another is between its count and its
    insert. -/
theorem queue_bound_iff (maxSize : Int) (es : List QueueAction) :
    (Always QueueProcess.step (fun s => (s.pending.length : Int) ≤ maxSize) (fresh maxSize) es ↔
      0 ≤ maxSize ∧
        Allowed QueueProcess.step (fun s e => ¬ s.Overfills e) (fresh maxSize) es) ∧
    (0 ≤ maxSize → Allowed QueueProcess.step CountsAlone (fresh maxSize) es →
      Always QueueProcess.step (fun s => (s.pending.length : Int) ≤ maxSize)
        (fresh maxSize) es) := by
  have hiff : 0 ≤ maxSize →
      (Always QueueProcess.step (fun s => (s.pending.length : Int) ≤ maxSize) (fresh maxSize) es ↔
        Allowed QueueProcess.step (fun s e => ¬ s.Overfills e) (fresh maxSize) es) := by
    intro hmax
    refine Transition.always_iff_allowed_of_steps (fun s => s.maxSize = maxSize) _ ?_
      (fun s e _ _ hnone => s.not_overfills_of_none e hnone) es _ rfl hmax
    rintro s e s' rfl hfits hs
    rcases s.pending_length_step e s' hfits hs with ⟨hsame, hstep⟩
    refine ⟨hsame, ?_⟩
    rw [← hstep, hsame]
  constructor
  · constructor
    · intro halways
      have hmax := Transition.always_start halways
      exact ⟨hmax, (hiff hmax).mp halways⟩
    · rintro ⟨hmax, hall⟩
      exact (hiff hmax).mpr hall
  · intro hmax halone
    have hstart : (fresh maxSize).Reserved :=
      ⟨fun t p hcall => absurd hcall (by simp [fresh]),
        fun t _ p _ hcall => nomatch hcall⟩
    exact (hiff hmax).mpr (Transition.allowed_of_invariant
      QueueProcess.Reserved (fun s e s' h hg hs => QueueProcess.reserved_step s e s' h hg hs)
      (fun s e h _ => h.not_overfills s e) _ hstart halone)

/-- Two threads enqueue into a queue with room for one row. Both count before
    either inserts, and the table has two rows. -/
theorem queue_overfilled :
    ∃ s, run QueueProcess.step (fresh 1)
      [.enqueue 0 firstWrite, .enqueue 1 firstWrite, .perform 0 0 0, .perform 1 0 0,
       .perform 0 0 0, .perform 1 0 0] = some s ∧ s.pending.length = 2 ∧ s.maxSize = 1 :=
  ⟨_, rfl, rfl, rfl⟩

end CoopDB
