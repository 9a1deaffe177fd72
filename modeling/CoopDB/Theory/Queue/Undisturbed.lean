import CoopDB.Theory.Queue.Statements
import CoopDB.Theory.Queue.Steps

/-!
# Calls That Run Undisturbed

The queue is modelled twice: with each method in one piece, and one SQLite
statement at a time. This is what holds the two together: thread 0 flushes, thread 1
enqueues, and no statement comes between two statements of a method.

## Main definitions

* `Mirrors`: The process has the tables of the queue, and its thread 0 is where
  the call of `flush` is.

## Theorems

* `mirrors_fresh`: A new file mirrors an empty queue.
* `mirrors_step`: One step of the queue is some statements of the process.
* `mirrors_run`: Every run of the queue is a run of the process.
-/

namespace CoopDB

open Transition (run)

/-- The process has the tables and the records of the queue. Its thread 0 is
    where the call of `flush` is, and its thread 1 has nothing to do. -/
structure Mirrors (q : QueueState) (s : QueueProcess) : Prop where
  maxSize : s.maxSize = q.maxSize
  pending : s.pending = q.pending
  dead : s.dead.map Prod.snd = q.dead
  nextID : s.nextID = q.nextID
  enqueued : s.enqueued = q.enqueued
  acked : s.acked = q.acked.map QueueItem.id
  flushing : s.calls 0 = q.flushing.bind (fun f => QueueCall.resume (some f.batch))
  enqueuing : s.calls 1 = none

theorem mirrors_fresh (maxSize : Int) :
    Mirrors (QueueState.empty maxSize) (QueueProcess.fresh maxSize) :=
  ⟨rfl, rfl, rfl, rfl, rfl, rfl, rfl, rfl⟩

section

variable {q : QueueState} {s : QueueProcess} (h : Mirrors q s)

include h

/-- The call of `flush` waits for an answer to the next item of its batch. -/
theorem Mirrors.sending {item : QueueItem} {rest : List QueueItem} {sent failed : Nat}
    (hflush : q.flushing = some ⟨item :: rest, sent, failed⟩) :
    s.calls 0 = some (.sending item rest) := by
  rw [h.flushing, hflush]
  rfl

/-- The call of `flush` is about to ask for a batch. -/
theorem Mirrors.fetching {sent failed : Nat} (hflush : q.flushing = some ⟨[], sent, failed⟩) :
    s.calls 0 = some .fetching := by
  rw [h.flushing, hflush]
  rfl

/-- Both models find the same items due. -/
theorem Mirrors.nextDue (now : Time) (limit : Nat) : s.nextDue now limit = q.nextDue now limit := by
  unfold QueueProcess.nextDue QueueState.nextDue
  rw [h.pending]

/-- An item is buried by two statements. -/
theorem Mirrors.buried (item : QueueItem) (err : String) (rest : Option (List QueueItem))
    (now delay : Time) (flushing : Option Flush) (returned : List (Nat × Nat))
    (hflushing : QueueCall.resume rest =
      flushing.bind (fun f => QueueCall.resume (some f.batch))) :
    ∃ s', run QueueProcess.step (s.turn 0 (some (.burying item err rest)))
        [.perform 0 now delay, .perform 0 now delay] = some s' ∧
      Mirrors { q.bury item err with flushing := flushing, returned := returned } s' := by
  refine ⟨_, rfl, h.maxSize, ?_, ?_, h.nextID, h.enqueued, h.acked, hflushing, h.enqueuing⟩
  · exact congrArg (fun l => KeyedList.remove QueueItem.id l item.id) h.pending
  · simp only [QueueState.bury]
    rw [← h.dead]
    exact List.map_append

/-- The sender's answer comes first, and then the statements it leads to. -/
theorem Mirrors.answered {item : QueueItem} {rest : List QueueItem} {sent failed : Nat}
    (hflush : q.flushing = some ⟨item :: rest, sent, failed⟩) (answer : Except Raised Unit)
    {as : List QueueAction} {s' : QueueProcess}
    (hrun : run QueueProcess.step (s.answered 0 item rest answer) as = some s') :
    run QueueProcess.step s (.answer 0 answer :: as) = some s' := by
  have hcall := h.sending hflush
  simp only [Transition.run, QueueProcess.step, hcall]
  exact hrun

/-- One step of the queue is some statements of the process, one after the
    other. -/
theorem mirrors_step {e : QueueEvent} {q' : QueueState} (hs : q.step e = some q') :
    ∃ as s', run QueueProcess.step s as = some s' ∧ Mirrors q' s' := by
  -- The call of `flush` is thread 0, and that of `enqueue` thread 1.
  cases queueStep_moved q hs with
  | refused p now hfull =>
    refine ⟨[.enqueue 1 p, .perform 1 now 0], (s.turn 1 (some (.counting p))).turn 1 none, ?_, ?_⟩
    · have hfull' : (s.pending.length : Int) ≥ s.maxSize := by
        rw [h.pending, h.maxSize]
        exact hfull
      simp only [Transition.run, QueueProcess.step, QueueProcess.begin, h.enqueuing,
        QueueProcess.turn, Function.update_self, QueueProcess.perform, if_pos hfull']
    · exact ⟨h.maxSize, h.pending, h.dead, h.nextID, h.enqueued, h.acked, h.flushing, rfl⟩
  | enqueued p now hroom item hitem =>
    have hroom' : ¬ (s.pending.length : Int) ≥ s.maxSize := by
      rw [h.pending, h.maxSize]
      exact hroom
    have hitem' : item = ⟨s.nextID, p, 0, none, now⟩ := by
      rw [hitem, h.nextID]
    refine ⟨[.enqueue 1 p, .perform 1 now 0, .perform 1 now 0],
      { ((s.turn 1 (some (.counting p))).turn 1 (some (.inserting p))).turn 1 none with
        pending := s.pending ++ [item], nextID := s.nextID + 1
        enqueued := s.enqueued ++ [item] }, ?_, ?_⟩
    · simp only [Transition.run, QueueProcess.step, QueueProcess.begin, h.enqueuing,
        QueueProcess.turn, Function.update_self, QueueProcess.perform, if_neg hroom', hitem']
    · refine ⟨h.maxSize, ?_, h.dead, ?_, ?_, h.acked, h.flushing, rfl⟩
      · exact congrArg (· ++ [item]) h.pending
      · exact congrArg (· + 1) h.nextID
      · exact congrArg (· ++ [item]) h.enqueued
  | began hidle =>
    have hcall : s.calls 0 = none := by rw [h.flushing, hidle]; rfl
    refine ⟨[.flush 0], s.turn 0 (some .fetching), ?_, ?_⟩
    · simp only [Transition.run, QueueProcess.step, QueueProcess.begin, hcall]
    · exact ⟨h.maxSize, h.pending, h.dead, h.nextID, h.enqueued, h.acked, rfl, h.enqueuing⟩
  | drained now sent failed hflush hdue =>
    have hcall := h.fetching hflush
    refine ⟨[.perform 0 now 0], s.turn 0 none, ?_, ?_⟩
    · simp only [Transition.run, QueueProcess.step, hcall, QueueProcess.perform,
        h.nextDue now flushLimit, hdue]
    · exact ⟨h.maxSize, h.pending, h.dead, h.nextID, h.enqueued, h.acked, rfl, h.enqueuing⟩
  | batched now sent failed hflush hdue =>
    have hcall := h.fetching hflush
    cases hbatch : q.nextDue now flushLimit with
    | nil => exact absurd hbatch hdue
    | cons item rest =>
      refine ⟨[.perform 0 now 0], s.turn 0 (some (.sending item rest)), ?_, ?_⟩
      · simp only [Transition.run, QueueProcess.step, hcall, QueueProcess.perform,
          h.nextDue now flushLimit, hbatch]
      · exact ⟨h.maxSize, h.pending, h.dead, h.nextID, h.enqueued, h.acked, rfl, h.enqueuing⟩
  | acked now delay item rest sent failed hflush =>
    refine ⟨[.answer 0 (.ok ()), .perform 0 now delay], _, h.answered hflush (.ok ()) rfl, ?_⟩
    refine ⟨h.maxSize, ?_, h.dead, h.nextID, h.enqueued, ?_, rfl, h.enqueuing⟩
    · exact congrArg (fun l => KeyedList.remove QueueItem.id l item.id) h.pending
    · rw [List.map_append, ← h.acked]
      rfl
  | backedOff err now delay item rest sent failed hflush hkind hlow hdelay =>
    have hcall : s.answered 0 item rest (.error (.api err))
        = s.turn 0 (some (.backingOff item err.message)) := by
      simp only [QueueProcess.answered, if_pos hkind, QueueCall.failing,
        if_neg (Nat.not_le.mpr hlow)]
    refine ⟨[.answer 0 (.error (.api err)), .perform 0 now delay],
      { (s.turn 0 (some (.backingOff item err.message))).turn 0 none with
        pending := KeyedList.modify QueueItem.id s.pending item.id (fun i =>
          { i with attempts := item.attempts + 1, lastError := some err.message
                   nextAttemptAt := now + delay }) }, ?_, ?_⟩
    · refine h.answered hflush _ ?_
      rw [hcall]
      simp only [Transition.run, QueueProcess.step, QueueProcess.turn, Function.update_self,
        QueueProcess.perform, if_pos hdelay]
    · refine ⟨h.maxSize, ?_, h.dead, h.nextID, h.enqueued, h.acked, rfl, h.enqueuing⟩
      exact h.pending ▸ rfl
  | exhausted err now delay item rest sent failed hflush hkind hmax =>
    have hcall : s.answered 0 item rest (.error (.api err))
        = s.turn 0 (some (.burying item err.message none)) := by
      simp only [QueueProcess.answered, if_pos hkind, QueueCall.failing, if_pos hmax]
    rcases h.buried item err.message none now delay none _ rfl with ⟨s', hrun, hmirrors⟩
    exact ⟨_, s', h.answered hflush _ (hcall ▸ hrun), hmirrors⟩
  | buried err now delay item rest sent failed hflush hkind =>
    have hcall : s.answered 0 item rest (.error (.api err))
        = s.turn 0 (some (.burying item err.message (some rest))) := by
      simp only [QueueProcess.answered, if_neg hkind]
    rcases h.buried item err.message (some rest) now delay (some ⟨rest, sent, failed + 1⟩)
      q.returned rfl with ⟨s', hrun, hmirrors⟩
    exact ⟨_, s', h.answered hflush _ (hcall ▸ hrun), hmirrors⟩
  | escaped text now delay item rest sent failed hflush =>
    refine ⟨[.answer 0 (.error (.other text))], _, h.answered hflush _ rfl, ?_⟩
    exact ⟨h.maxSize, h.pending, h.dead, h.nextID, h.enqueued, h.acked, rfl, h.enqueuing⟩

end

/-- Every run of the queue is a run of the process. -/
theorem mirrors_run (maxSize : Int) (es : List QueueEvent) (q : QueueState)
    (hrun : run QueueState.step (QueueState.empty maxSize) es = some q) :
    ∃ as s, run QueueProcess.step (QueueProcess.fresh maxSize) as = some s ∧ Mirrors q s := by
  refine Transition.run_kept
    (fun q => ∃ as s, run QueueProcess.step (QueueProcess.fresh maxSize) as = some s ∧ Mirrors q s)
    ⟨[], _, rfl, mirrors_fresh maxSize⟩ ?_ hrun
  rintro q e q' ⟨as, s, has, hmirrors⟩ hs
  rcases mirrors_step hmirrors hs with ⟨as', s', has', hmirrors'⟩
  refine ⟨as ++ as', s', ?_, hmirrors'⟩
  rw [Transition.run_append, has, Option.bind_some, has']

/-- A write that is enqueued, sent and acknowledged. -/
theorem one_write_mirrored :
    ∃ q, run QueueState.step (QueueState.empty 10)
        [.enqueue firstWrite 0, .flush, .nextDue 1, .send (.ok ()) 1 0, .nextDue 1] = some q ∧
      ∃ as s, run QueueProcess.step (QueueProcess.fresh 10) as = some s ∧ Mirrors q s :=
  ⟨_, rfl, mirrors_run 10
    [.enqueue firstWrite 0, .flush, .nextDue 1, .send (.ok ()) 1 0, .nextDue 1] _ rfl⟩

end CoopDB
