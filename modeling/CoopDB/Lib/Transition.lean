import Mathlib.Data.List.Induction

/-!
# Runs of a Step Function

A system here is a step function `σ → ε → Option σ`: given a state and an
event it answers the next state, or `none` when the event cannot happen there.
All nondeterminism sits in the choice of events, so a run is a list of events
and the state it ends in is computed.

`Allowed` restricts the runs. A guard says, of one event and the state it is
taken in, whether the run may contain it, and `Allowed` asks that of every
event. Assumptions about the environment ("no process crashes", "the clock
never goes back") are guards, and so is the condition under which a defective
step is harmless.

`run_trace_invariant` is the induction every safety result goes through. It
carries the events taken so far as well as the state, since several results
are about where in the run something happened. `run_invariant` is the special
case that forgets the events.

## Main definitions

* `run`, `Allowed`: The state a list of events leads to, and guarded runs.

## Theorems

* `run_trace_invariant`: What every step keeps, a run keeps.
* `run_append`, `allowed_append`: Splitting a run, and a guarded one.
* `run_snoc`: The last step of a run.
* `allowed_mono`: Weakening the guard.
* `allowed_and`: Two guards at once.
-/

namespace Transition

variable {σ ε : Type} (step : σ → ε → Option σ)

/-- The state reached by taking the events in order, or `none` if one of them
    cannot be taken. -/
def run : σ → List ε → Option σ
  | s, [] => some s
  | s, e :: es => match step s e with
    | none => none
    | some s' => run s' es

/-- Every event of the list meets the guard in the state it is taken in. -/
def Allowed (G : σ → ε → Prop) : σ → List ε → Prop
  | _, [] => True
  | s, e :: es => G s e ∧ ∀ s', step s e = some s' → Allowed G s' es

/-- Along a list of events the states are computed, so a decidable guard can be
    checked. -/
instance decidableAllowed (G : σ → ε → Prop) [∀ s e, Decidable (G s e)] :
    ∀ s es, Decidable (Allowed step G s es)
  | _, [] => isTrue trivial
  | s, e :: es =>
    match h : step s e with
    | none => decidable_of_iff (G s e) (by
        simp [Allowed, h])
    | some s' =>
      haveI := decidableAllowed G s' es
      decidable_of_iff (G s e ∧ Allowed step G s' es) (by
        simp [Allowed, h])

/-- Some event of the list meets the condition in the state it is taken in. -/
def Sometime (Q : σ → ε → Prop) : σ → List ε → Prop
  | _, [] => False
  | s, e :: es => Q s e ∨ ∃ s', step s e = some s' ∧ Sometime Q s' es

instance decidableSometime (Q : σ → ε → Prop) [∀ s e, Decidable (Q s e)] :
    ∀ s es, Decidable (Sometime step Q s es)
  | _, [] => isFalse not_false
  | s, e :: es =>
    match h : step s e with
    | none => decidable_of_iff (Q s e) (by
        simp [Sometime, h])
    | some s' =>
      haveI := decidableSometime Q s' es
      decidable_of_iff (Q s e ∨ Sometime step Q s' es) (by
        simp [Sometime, h])

/-- Each event of the list, where it can be taken, leads to a related state. -/
def EveryStep (R : σ → σ → Prop) (s : σ) (es : List ε) : Prop :=
  Allowed step (fun s e => ∀ s', step s e = some s' → R s s') s es

/-- The property holds at the start and after every event of the list. -/
def Always (P : σ → Prop) : σ → List ε → Prop
  | s, [] => P s
  | s, e :: es => P s ∧ ∀ s', step s e = some s' → Always P s' es

variable {step} {G H : σ → ε → Prop} {s u : σ} {es es' : List ε} (R : σ → σ → Prop)
  (P I : σ → Prop)

/-- The first step of a completed run. -/
theorem run_cons {e : ε} (h : run step s (e :: es) = some u) :
    ∃ t, step s e = some t ∧ run step t es = some u := by
  rw [run] at h
  cases hs : step s e with
  | none => rw [hs] at h; cases h
  | some t => rw [hs] at h; exact ⟨t, rfl, h⟩

theorem run_append :
    run step s (es ++ es') = (run step s es).bind (fun t => run step t es') := by
  induction es generalizing s with
  | nil => rfl
  | cons e es ih =>
    simp only [List.cons_append, run]
    cases step s e with
    | none => rfl
    | some s' => exact ih

/-- A completed run passes through the state its prefix ends in. -/
theorem run_append_some (h : run step s (es ++ es') = some u) :
    ∃ t, run step s es = some t ∧ run step t es' = some u := by
  rw [run_append] at h
  exact Option.bind_eq_some_iff.mp h

theorem run_snoc (es : List ε) (e : ε) :
    run step s (es ++ [e]) = some u ↔ ∃ t, run step s es = some t ∧ step t e = some u := by
  have hone : ∀ t, run step t [e] = step t e := by
    intro t
    simp only [run]
    cases step t e with
    | none | some => rfl
  rw [run_append, Option.bind_eq_some_iff]
  simp only [hone]

theorem allowed_append : Allowed step G s (es ++ es') ↔
      Allowed step G s es ∧ ∀ t, run step s es = some t → Allowed step G t es' := by
  induction es generalizing s with
  | nil =>
    simp only [List.nil_append, Allowed, run, Option.some.injEq, true_and]
    exact ⟨fun h t ht => ht ▸ h, fun h => h s rfl⟩
  | cons e es ih =>
    simp only [List.cons_append, Allowed, run]
    constructor
    · rintro ⟨hg, hrest⟩
      refine ⟨⟨hg, fun s' hs' => (ih.mp (hrest s' hs')).1⟩, fun t ht => ?_⟩
      cases hstep : step s e with
      | none => rw [hstep] at ht; cases ht
      | some s' =>
        rw [hstep] at ht
        exact (ih.mp (hrest s' hstep)).2 t ht
    · rintro ⟨⟨hg, hrest⟩, hend⟩
      refine ⟨hg, fun s' hs' => ih.mpr ⟨hrest s' hs', fun t ht => ?_⟩⟩
      refine hend t ?_
      rw [hs']
      exact ht

theorem allowed_mono (hGH : ∀ s e, G s e → H s e) (h : Allowed step G s es) :
    Allowed step H s es := by
  induction es generalizing s with
  | nil => trivial
  | cons e es ih => exact ⟨hGH s e h.1, fun s' hs' => ih (h.2 s' hs')⟩

/-- Along a guarded run from a state with an invariant, a guard that follows
    from the two is met as well. -/
theorem allowed_of_invariant (hstep : ∀ s e s', I s → G s e → step s e = some s' → I s')
    (himp : ∀ s e, I s → G s e → H s e) {es : List ε} :
    ∀ s, I s → Allowed step G s es → Allowed step H s es := by
  induction es with
  | nil => exact fun _ _ _ => trivial
  | cons e es ih =>
    intro s hI hall
    exact ⟨himp s e hI hall.1, fun s' hs' => ih s' (hstep s e s' hI hall.1 hs') (hall.2 s' hs')⟩

/-- Two guards that agree wherever a step is taken are met by the same completed
    runs. -/
theorem allowed_iff_of_run (hinv : ∀ s e s', I s → step s e = some s' → I s')
    (hiff : ∀ s e s', I s → step s e = some s' → (G s e ↔ H s e)) (es : List ε) :
    ∀ s u, I s → run step s es = some u → (Allowed step G s es ↔ Allowed step H s es) := by
  induction es with
  | nil => exact fun _ _ _ _ => Iff.rfl
  | cons e es ih =>
    intro s u hI hrun
    rcases run_cons hrun with ⟨t, hs, hrun⟩
    have hrest := ih t u (hinv s e t hI hs) hrun
    simp [Allowed, hs, hiff s e t hI hs, hrest]

/-- A property of the events taken so far and the state they led to holds
    throughout every guarded run, once it holds at the start and each guarded
    step keeps it. The induction is on the events from the right, so a step
    sees the whole run before it. -/
theorem run_trace_invariant (I : List ε → σ → Prop) {s₀ : σ} (hinit : I [] s₀)
    (hstep : ∀ es s e s', run step s₀ es = some s → I es s → G s e → step s e = some s' →
      I (es ++ [e]) s') :
    ∀ es s, Allowed step G s₀ es → run step s₀ es = some s → I es s := by
  intro es
  induction es using List.reverseRecOn with
  | nil =>
    intro s _ hrun
    simp only [run, Option.some.injEq] at hrun
    rw [← hrun]
    exact hinit
  | append_singleton es e ih =>
    intro s hall hrun
    rcases (run_snoc es e).mp hrun with ⟨t, ht, hlast⟩
    rcases allowed_append.mp hall with ⟨hpre, hend⟩
    exact hstep es t e s ht (ih t hpre ht) (hend t ht).1 hlast

/-- A property of states kept by every guarded step holds wherever a guarded
    run ends. -/
theorem run_invariant {s₀ : σ} (hinit : I s₀)
    (hstep : ∀ s e s', I s → G s e → step s e = some s' → I s') {es : List ε} {s : σ}
    (hall : Allowed step G s₀ es) (hrun : run step s₀ es = some s) : I s :=
  run_trace_invariant (fun _ t => I t) hinit
    (fun _ t e t' _ hI hG ht => hstep t e t' hI hG ht) es s hall hrun

/-- A reflexive and transitive relation that every guarded step respects
    relates the start of a guarded run to its end. -/
theorem run_relation (hrefl : ∀ s, R s s) (htrans : ∀ s t u, R s t → R t u → R s u)
    (hstep : ∀ s e s', G s e → step s e = some s' → R s s') {s₀ : σ} {es : List ε} {s : σ}
    (hall : Allowed step G s₀ es) (hrun : run step s₀ es = some s) : R s₀ s :=
  run_invariant (R s₀) (hrefl s₀)
    (fun t e t' hR hG ht => htrans s₀ t t' hR (hstep t e t' hG ht)) hall hrun

theorem allowed_and (hG : Allowed step G s es) (hH : Allowed step H s es) :
    Allowed step (fun s e => G s e ∧ H s e) s es := by
  induction es generalizing s with
  | nil => trivial
  | cons e es ih => exact ⟨⟨hG.1, hH.1⟩, fun s' hs' => ih (hG.2 s' hs') (hH.2 s' hs')⟩

/-- In a completed run, a reflexive and transitive relation that every step
    respects relates each state to the last one. -/
theorem allowed_related_to_end (hrefl : ∀ s, R s s) (htrans : ∀ s t u, R s t → R t u → R s u)
    (hstep : ∀ s e s', step s e = some s' → R s s') (es : List ε) : ∀ s u, run step s es = some u →
      R s u ∧ Allowed step (fun t _ => R t u) s es := by
  induction es with
  | nil =>
    intro s u hrun
    simp only [run, Option.some.injEq] at hrun
    rw [hrun]
    exact ⟨hrefl u, trivial⟩
  | cons e es ih =>
    intro s u hrun
    rcases run_cons hrun with ⟨t, hs, hrun⟩
    rcases ih t u hrun with ⟨htu, hrest⟩
    have hsu := htrans s t u (hstep s e t hs) htu
    refine ⟨hsu, hsu, fun t' ht' => ?_⟩
    rw [hs, Option.some.injEq] at ht'
    rw [← ht']
    exact hrest

/-- The last event met the condition, or one before it did. -/
theorem sometime_snoc {Q : σ → ε → Prop} {e : ε} :
    Sometime step Q s (es ++ [e]) ↔
      Sometime step Q s es ∨ ∃ t, run step s es = some t ∧ Q t e := by
  induction es generalizing s with
  | nil => simp [Sometime, run]
  | cons e' es ih =>
    simp only [List.cons_append, Sometime, run]
    cases hstep : step s e' with
    | none => simp
    | some s' => simp [ih, or_assoc]

/-- Where a step leads to a related state exactly when it meets the guard, a
    run takes only related steps exactly when every event meets the guard. -/
theorem everyStep_iff_allowed {R : σ → σ → Prop}
    (hstep : ∀ s e, (∀ s', step s e = some s' → R s s') ↔ G s e) :
    EveryStep step R s es ↔ Allowed step G s es :=
  ⟨allowed_mono (fun s e => (hstep s e).mp),
    allowed_mono (fun s e => (hstep s e).mpr)⟩

/-- A guard on the events alone is met along a run if every event of the list
    meets it. -/
theorem allowed_of_forall {H : ε → Prop} (h : ∀ e ∈ es, H e) :
    ∀ s, Allowed step (fun _ e => H e) s es := by
  induction es with
  | nil => exact fun _ => trivial
  | cons e es ih =>
    rw [List.forall_mem_cons] at h
    exact fun s => ⟨h.1, fun s' _ => ih h.2 s'⟩

theorem allowed_true : Allowed step (fun _ _ => True) s es :=
  allowed_of_forall (fun _ _ => trivial) s

/-- A property of states kept by every step there is holds wherever a run
    ends. -/
theorem run_kept {s₀ : σ} (hinit : I s₀) (hstep : ∀ s e s', I s → step s e = some s' → I s')
    (hrun : run step s₀ es = some s) : I s :=
  run_invariant I hinit (fun s e s' hI _ hs => hstep s e s' hI hs) allowed_true hrun

/-- Where every event can be taken, a guard on the events alone is met along a
    run exactly when every event of the list meets it. -/
theorem allowed_iff_forall {H : ε → Prop} (htotal : ∀ s e, ∃ s', step s e = some s')
    (es : List ε) : ∀ s, Allowed step (fun _ e => H e) s es ↔ ∀ e ∈ es, H e := by
  induction es with
  | nil => exact fun s => ⟨fun _ e he => absurd he List.not_mem_nil, fun _ => trivial⟩
  | cons e es ih =>
    intro s
    rcases htotal s e with ⟨t, ht⟩
    rw [List.forall_mem_cons]
    constructor
    · intro h
      exact ⟨h.1, (ih t).mp (h.2 t ht)⟩
    · intro h
      exact ⟨h.1, fun s' _ => (ih s').mpr h.2⟩

/-- A property of states kept by every guarded step holds in every state of a
    guarded run. -/
theorem always_of_invariant (hstep : ∀ s e s', P s → G s e → step s e = some s' → P s')
    {es : List ε} : ∀ s, P s → Allowed step G s es → Always step P s es := by
  induction es with
  | nil => exact fun s hs _ => hs
  | cons e es ih =>
    intro s hs hall
    exact ⟨hs, fun s' hs' => ih s' (hstep s e s' hs hall.1 hs') (hall.2 s' hs')⟩

theorem always_mono {P Q : σ → Prop} (hPQ : ∀ s, P s → Q s) {es : List ε} :
    ∀ s, Always step P s es → Always step Q s es := by
  induction es with
  | nil => exact fun s h => hPQ s h
  | cons e es ih => exact fun s h => ⟨hPQ s h.1, fun s' hs' => ih s' (h.2 s' hs')⟩

/-- A property that always holds holds in the first state. -/
theorem always_start {P : σ → Prop} (h : Always step P s es) : P s := by
  cases es with
  | nil => exact h
  | cons => exact h.1

/-- Suppose every step keeps the auxiliary invariant `J`, and keeps the property
    exactly when it meets the guard, and an event that cannot be taken meets it.
    Then the property holds throughout a run exactly when every event of the run
    meets the guard. The invariant is there for the converse: it says what a
    step that misses the guard breaks. -/
theorem always_iff_allowed_of_steps (J P : σ → Prop)
    (hstep : ∀ s e s', J s → P s → step s e = some s' → J s' ∧ (P s' ↔ G s e))
    (hnone : ∀ s e, J s → P s → step s e = none → G s e) (es : List ε) :
    ∀ s, J s → P s → (Always step P s es ↔ Allowed step G s es) := by
  induction es with
  | nil => exact fun s _ hs => ⟨fun _ => trivial, fun _ => hs⟩
  | cons e es ih =>
    intro s hj hs
    cases ht : step s e with
    | none =>
      have hstuck : ∀ s', step s e ≠ some s' := by
        intro s' hs'
        exact nomatch (ht.symm.trans hs')
      exact ⟨fun _ => ⟨hnone s e hj hs ht, fun s' hs' => absurd hs' (hstuck s')⟩,
        fun _ => ⟨hs, fun s' hs' => absurd hs' (hstuck s')⟩⟩
    | some t =>
      rcases hstep s e t hj hs ht with ⟨hjt, hiff⟩
      have honly : ∀ s', step s e = some s' → s' = t := by
        intro s' hs'
        exact Option.some.inj (hs'.symm.trans ht)
      constructor
      · rintro ⟨_, hrest⟩
        have hpt : P t := always_start (hrest t ht)
        refine ⟨hiff.mp hpt, fun s' hs' => ?_⟩
        rw [honly s' hs']
        exact (ih t hjt hpt).mp (hrest t ht)
      · rintro ⟨hg, hrest⟩
        have hpt : P t := hiff.mpr hg
        refine ⟨hs, fun s' hs' => ?_⟩
        rw [honly s' hs']
        exact (ih t hjt hpt).mpr (hrest t ht)

/-- The same where every event can be taken. -/
theorem always_iff_allowed_of_invariant (J P : σ → Prop)
    (hstep : ∀ s e, J s → P s → ∃ s', step s e = some s' ∧ J s' ∧ (P s' ↔ G s e)) (es : List ε) :
    ∀ s, J s → P s → (Always step P s es ↔ Allowed step G s es) := by
  refine always_iff_allowed_of_steps J P ?_ ?_ es
  · intro s e s' hj hs hs'
    rcases hstep s e hj hs with ⟨t, ht, hjt, hiff⟩
    rw [Option.some.inj (hs'.symm.trans ht)]
    exact ⟨hjt, hiff⟩
  · intro s e hj hs hnone
    rcases hstep s e hj hs with ⟨t, ht, _⟩
    exact nomatch (hnone.symm.trans ht)

/-- The same where the property needs no other invariant. -/
theorem always_iff_allowed (hstep : ∀ s e, P s → ∃ s', step s e = some s' ∧ (P s' ↔ G s e))
    (es : List ε) (s : σ) (hs : P s) : Always step P s es ↔ Allowed step G s es := by
  refine always_iff_allowed_of_invariant (fun _ => True) P (fun t e _ ht => ?_) es s trivial hs
  rcases hstep t e ht with ⟨t', ht', hiff⟩
  exact ⟨t', ht', trivial, hiff⟩

/-- Suppose two states that look alike still do after an event that is kept,
    and that an event that is left out does not change how a state looks. Then
    the kept events of a run are a run from any state that looks like the
    first, and it ends in a state that looks like the last. The invariant is
    one of the full run only. -/
theorem run_filter (keep : ε → Bool) (I : σ → Prop) (R : σ → σ → Prop)
    (hinv : ∀ s e s', I s → step s e = some s' → I s')
    (hkeep : ∀ s t e s', I s → R s t → keep e = true → step s e = some s' →
      ∃ t', step t e = some t' ∧ R s' t')
    (hdrop : ∀ s t e s', I s → R s t → keep e = false → step s e = some s' → R s' t)
    (es : List ε) : ∀ s t u, I s → R s t → run step s es = some u →
      ∃ v, run step t (es.filter keep) = some v ∧ R u v := by
  induction es with
  | nil =>
    intro s t u _ hR hrun
    simp only [run, Option.some.injEq] at hrun
    exact ⟨t, rfl, hrun ▸ hR⟩
  | cons e es ih =>
    intro s t u hI hR hrun
    rcases run_cons hrun with ⟨s', hs, hrun⟩
    have hI' := hinv s e s' hI hs
    cases he : keep e with
    | false =>
      rw [List.filter_cons_of_neg (Bool.eq_false_iff.mp he)]
      exact ih s' t u hI' (hdrop s t e s' hI hR he hs) hrun
    | true =>
      rcases hkeep s t e s' hI hR he hs with ⟨t', ht, hR'⟩
      rw [List.filter_cons_of_pos he]
      simp only [run, ht]
      exact ih s' t' u hI' hR' hrun

end Transition
