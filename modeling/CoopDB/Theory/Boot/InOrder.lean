import CoopDB.Theory.Boot.Recovery

/-!
# Migrations Are Applied in Order, Once Each

A server that fails to boot is started again, and each start calls `RunMigrations`.
Any migration may fail in any of the calls.

The recovery forces the version before a dirty one. Where the source has that version,
it is the last one that succeeded, so the dirty one is run again. Where it has not, no
later call runs anything.

## Main definitions

* `InStep`: What has been applied is the front of the source, and the record is at its
  end, dirty at the next migration, or at a version that the source does not have.

## Theorems

* `migrations_in_order`: Over all calls the migrations that have succeeded are the first
  ones of the source, in its order, and a call that returns nil leaves none out.
-/

namespace CoopDB

open MigrationRunner

/-- A database over many calls, and the migrations that have succeeded on it. -/
structure Boots where
  state : State
  applied : List Nat

/-- Of the migrations that were begun, those whose body did not fail. -/
def succeeded (body : Nat → Option String) (begun : List Nat) : List Nat :=
  begun.filter fun v => (body v).isNone

/-- A call of `RunMigrations` in which the bodies end as given. -/
def Boots.next (src : Source) (b : Boots) (body : Nat → Option String) : Boots :=
  let s := (runMigrations src body b.state).2
  { state := s, applied := b.applied ++ succeeded body (s.ran.drop b.state.ran.length) }

/-- A new database, and one call after the other. -/
def boots (src : Source) (bodies : List (Nat → Option String)) : Boots :=
  bodies.foldl (Boots.next src) ⟨⟨none, false, []⟩, []⟩

/-- What has been applied is the front of the source. The record is at its end, or dirty
    at the next migration, or at a version that the source does not have. -/
def InStep (src : Source) (b : Boots) : Prop :=
  ∃ rest, src.versions = b.applied ++ rest ∧
    ((b.state.dirty = false ∧ b.state.version = b.applied.getLast?) ∨
      (∃ v after, rest = v :: after ∧ b.state.dirty = true ∧ b.state.version = some v) ∨
      (b.state.dirty = false ∧ ∃ u, b.state.version = some u ∧ u ∉ src.versions))

variable (src : Source) (body : Nat → Option String)

/-- A result of `Up` on a database where `done` was applied: it has kept step, and it is
    a success, with nothing left to apply, or one of two errors. -/
def KeepsStep (done : List Nat) (s : State) (r : Option MigrationRunner.Error × State) : Prop :=
  ∃ begun, r.2.ran = s.ran ++ begun ∧ InStep src ⟨r.2, done ++ succeeded body begun⟩ ∧
    ((r.1 = none ∨ r.1 = some .noChange) ∧ done ++ succeeded body begun = src.versions ∨
      r.1 = some .noMigrations ∨ ∃ v text, r.1 = some (.failed v text))

/-- Migrations are run in order, up to the first that fails. -/
theorem runAll_keepsStep (pending done : List Nat) (s : State)
    (hsrc : src.versions = done ++ pending) (hdirty : s.dirty = false)
    (hversion : s.version = done.getLast?) :
    KeepsStep src body done s (runAll body pending s) := by
  induction pending generalizing done s with
  | nil =>
    rw [List.append_nil] at hsrc
    refine ⟨[], (List.append_nil _).symm, ⟨[], ?_, .inl ⟨hdirty, ?_⟩⟩, .inl ⟨.inl rfl, ?_⟩⟩
    · simp [succeeded, hsrc]
    · simp [runAll, succeeded, hversion]
    · simp [succeeded, hsrc]
  | cons v pending ih =>
    cases hv : body v with
    | some text =>
      refine ⟨[v], by simp [runAll, hv], ⟨v :: pending, ?_, .inr (.inl ⟨v, pending, rfl, ?_⟩)⟩,
        .inr (.inr ⟨v, text, by simp [runAll, hv]⟩)⟩
      · simp [succeeded, hv, hsrc]
      · simp [runAll, hv]
    | none =>
      have hrun : runAll body (v :: pending) s =
          runAll body pending ⟨some v, false, s.ran ++ [v]⟩ := by
        simp only [runAll, hv]
      rcases ih (done ++ [v]) ⟨some v, false, s.ran ++ [v]⟩ (by simp [hsrc]) rfl (by simp) with
        ⟨begun, hran, hstep, hend⟩
      have hfirst : done ++ succeeded body (v :: begun) = done ++ [v] ++ succeeded body begun := by
        simp [succeeded, hv]
      rw [hrun]
      refine ⟨v :: begun, by rw [hran, List.append_assoc, List.singleton_append], ?_⟩
      rw [hfirst]
      exact ⟨hstep, hend⟩

/-- On a clean record at the end of what has been applied, `Up` goes on from there. -/
theorem up_keepsStep (done rest : List Nat) (s : State) (hsrc : src.versions = done ++ rest)
    (hdirty : s.dirty = false) (hversion : s.version = done.getLast?) :
    KeepsStep src body done s (up src body s) := by
  have hread : readUp src src.versions.length s.version = rest ∧
      s.version.filter (· ∉ src.versions) = none := by
    rw [hversion]
    cases hlast : done.getLast? with
    | none =>
      rw [List.getLast?_eq_none_iff.mp hlast, List.nil_append] at hsrc
      exact ⟨(readUp_none src).trans hsrc, rfl⟩
    | some v =>
      obtain ⟨front, rfl⟩ := List.getLast?_eq_some_iff.mp hlast
      rw [List.append_assoc, List.singleton_append] at hsrc
      refine ⟨readUp_some _ hsrc ?_, ?_⟩
      · rw [hsrc, List.length_append, List.length_cons]
        omega
      · rw [Option.filter_some, if_neg]
        simp [hsrc]
  -- What is read are the migrations behind the last that was applied.
  have hall := runAll_keepsStep src body rest done s hsrc hdirty hversion
  unfold up
  rw [if_neg (by rw [hdirty]; exact Bool.false_ne_true), hread.2]
  simp only [hread.1]
  cases rest with
  | cons => exact hall
  | nil =>
    obtain ⟨begun, hran, hstep, _⟩ := hall
    refine ⟨begun, hran, hstep, ?_⟩
    cases hnone : s.version with
    | none => exact .inr (.inl rfl)
    | some =>
      have hbegun : begun = [] := List.append_cancel_left (hran.symm.trans (List.append_nil _).symm)
      refine .inl ⟨.inr rfl, ?_⟩
      rw [hbegun, hsrc]
      rfl

/-- A call that comes down to an `Up` that keeps step. -/
theorem inStep_next_of_up (b : Boots) (s : State) (r : Option MigrationRunner.Error × State)
    (hran : s.ran = b.state.ran) (hr : KeepsStep src body b.applied s r)
    (hstate : (runMigrations src body b.state).2 = r.2)
    (hnil : (runMigrations src body b.state).1 = none → r.1 = none ∨ r.1 = some .noChange) :
    InStep src (b.next src body) ∧
      ((runMigrations src body b.state).1 = none → (b.next src body).applied = src.versions) := by
  obtain ⟨begun, hbegun, hstep, hend⟩ := hr
  have hnext : b.next src body = ⟨r.2, b.applied ++ succeeded body begun⟩ := by
    simp only [Boots.next, hstate, hbegun, ← hran, List.drop_left]
  rw [hnext]
  refine ⟨hstep, fun hcall => ?_⟩
  rcases hend with ⟨_, hall⟩ | hend
  · exact hall
  · rcases hnil hcall with h | h <;> rw [h] at hend <;> simp at hend

/-- The version before a dirty one is the last that was applied, or none of the source. -/
theorem forced_cases {done after : List Nat} {v : Nat} (hsrc : src.versions = done ++ v :: after) :
    (if v = 0 then none else some (v - 1)) = done.getLast? ∨
      ∃ u, (if v = 0 then none else some (v - 1)) = some u ∧ u ∉ src.versions := by
  by_cases hzero : v = 0
  · have hnone : done = [] := List.eq_nil_iff_forall_not_mem.mpr fun u hu => by
      have hlt := (lt_of_versions hsrc).1 u hu
      omega
    rw [if_pos hzero, hnone]
    exact .inl rfl
  · rw [if_neg hzero]
    by_cases hmem : v - 1 ∈ src.versions
    · exact .inl (mem_versions_pred src hzero hsrc hmem).symm
    · exact .inr ⟨v - 1, rfl, hmem⟩

/-- A call keeps the invariant, and one that returns nil has applied everything. -/
theorem inStep_next (b : Boots) (h : InStep src b) : InStep src (b.next src body) ∧
    ((runMigrations src body b.state).1 = none → (b.next src body).applied = src.versions) := by
  -- A clean boot, one after a failed migration, and one with a version that is unknown.
  obtain ⟨rest, hsrc, ⟨hdirty, hversion⟩ | ⟨v, after, rfl, hdirty, hversion⟩ |
    ⟨hdirty, u, hversion, hu⟩⟩ := h
  · have hup := up_keepsStep src body b.applied rest b.state hsrc hdirty hversion
    have hcall : (runMigrations src body b.state).2 = (up src body b.state).2 ∧
        ((runMigrations src body b.state).1 = none →
          (up src body b.state).1 = none ∨ (up src body b.state).1 = some .noChange) := by
      obtain ⟨_, _, _, hend⟩ := hup
      unfold runMigrations
      rcases hr : up src body b.state with ⟨_ | err, s⟩
      · simp
      · cases err with
        | dirty => simp [hr] at hend
        | _ => simp
    exact inStep_next_of_up src body b b.state (up src body b.state) rfl hup hcall.1 hcall.2
  · have hretry : ∀ r : Option MigrationRunner.Error × State, (afterRetry v r).2 = r.2 ∧
        ((afterRetry v r).1 = none → r.1 = none ∨ r.1 = some .noChange) := by
      rintro ⟨_ | err, s⟩
      · simp [afterRetry]
      · cases err <;> simp [afterRetry]
    have hcall := runMigrations_dirty src body hversion hdirty
    have hcases := forced_cases src hsrc
    generalize (if v = 0 then none else some (v - 1)) = forced at hcall hcases
    rcases hcases with hlast | ⟨u, rfl, hu⟩
    · refine inStep_next_of_up src body b { b.state with version := forced, dirty := false } _ rfl
        (up_keepsStep src body b.applied (v :: after) _ hsrc rfl hlast) ?_ ?_
      · rw [hcall, (hretry _).1]
      · rw [hcall]
        exact (hretry _).2
    · rw [up_missing src body hu rfl rfl] at hcall
      unfold Boots.next
      rw [hcall]
      simp only [afterRetry, List.drop_length, succeeded, List.filter_nil, List.append_nil]
      exact ⟨⟨v :: after, hsrc, .inr (.inr ⟨rfl, u, rfl, hu⟩)⟩, fun hnil => nomatch hnil⟩
  · have hcall : runMigrations src body b.state = (some (.up (.notFound u)), b.state) := by
      simp [runMigrations, up_missing src body hu hversion hdirty]
    unfold Boots.next
    rw [hcall]
    simp only [List.drop_length, succeeded, List.filter_nil, List.append_nil]
    exact ⟨⟨rest, hsrc, .inr (.inr ⟨hdirty, u, hversion, hu⟩)⟩, fun hnil => nomatch hnil⟩

/-- From a new database, after any number of calls in which any migrations fail, those
    that have succeeded are the first ones of the source, in order and once each, and a
    call that then returns nil leaves none out. -/
theorem migrations_in_order (bodies : List (Nat → Option String)) :
    (boots src bodies).applied <+: src.versions ∧
      ((runMigrations src body (boots src bodies).state).1 = none →
        ((boots src bodies).next src body).applied = src.versions) := by
  have hfold : ∀ b, InStep src b → InStep src (bodies.foldl (Boots.next src) b) := by
    induction bodies with
    | nil => exact fun b h => h
    | cons first bodies ih => exact fun b h => ih _ (inStep_next src first b h).1
  have hstep : InStep src (boots src bodies) :=
    hfold _ ⟨src.versions, rfl, .inl ⟨rfl, rfl⟩⟩
  refine ⟨?_, (inStep_next src body _ hstep).2⟩
  obtain ⟨rest, hsrc, _⟩ := hstep
  exact ⟨rest, hsrc.symm⟩

/-- The second of three migrations fails at the first start. The second start runs it
    again, and the third one behind it. -/
theorem second_start_catches_up :
    (boots ⟨[1, 2, 3], by decide⟩ [fun v => if v = 2 then some "timeout" else none]).applied
      = [1] ∧
    ((boots ⟨[1, 2, 3], by decide⟩ [fun v => if v = 2 then some "timeout" else none]).next
      ⟨[1, 2, 3], by decide⟩ (fun _ => none)).applied = [1, 2, 3] :=
  ⟨by decide, (migrations_in_order ⟨[1, 2, 3], by decide⟩ (fun _ => none) _).2 (by decide)⟩

end CoopDB
