import Mathlib.Logic.Function.Basic

/-!
# A Unique-Key Table at READ COMMITTED

What a transaction sees and changes of one table with a unique key, statement
by statement.

A row is stored under its key, so uniqueness is built in. Each key also has
room for one uncommitted write, tagged with the transaction that made it: the
row to store, or `none` for a deletion. That single slot is the row lock. A
statement of another transaction that needs the key has to wait until the
owner commits or rolls back, and a statement that has to wait answers `none`
here, so a scheduler can only take it later. Waiting at the start of a
statement or in the middle of it makes no difference to a table addressed by
its key: nothing the statement has done so far is visible to anyone.

Reads never wait. `visible` is the committed row, or the transaction's own
uncommitted write on top of it, which is what a READ COMMITTED statement sees
when it starts.

## Main definitions

* `Table`: The committed rows and the uncommitted writes.

## Theorems

* `committed_commit_of_owner`, `committed_commit_of_not_owner`: A commit
  publishes exactly its own writes.
* `pending_commit_eq_some`, `pending_rollback_eq_some`: Locks that survive the
  end of a transaction belong to others.
-/

namespace ReadCommitted

/-- The committed rows by key, and at most one uncommitted write for each
    key. -/
structure Table (κ τ ρ : Type) where
  committed : κ → Option ρ
  pending : κ → Option (τ × Option ρ)

namespace Table

variable {κ τ ρ : Type}

/-- `DELETE` by condition as a transaction of its own. A row under an
    uncommitted write is left to a later run of the statement. -/
def deleteWhere (T : Table κ τ ρ) (p : ρ → Bool) : Table κ τ ρ :=
  { T with committed := fun k => match T.pending k with
      | none => (T.committed k).filter (fun row => !p row)
      | some _ => T.committed k }

section Transactions

variable [DecidableEq τ]

/-- The row transaction `t` sees under key `k`. -/
def visible (T : Table κ τ ρ) (t : τ) (k : κ) : Option ρ :=
  match T.pending k with
  | none => T.committed k
  | some (t', v) => if t' = t then v else T.committed k

/-- No transaction other than `t` holds an uncommitted write on `k`. -/
def free (T : Table κ τ ρ) (t : τ) (k : κ) : Bool :=
  match T.pending k with
  | none => true
  | some (t', _) => t' == t

/-- The locks left once `t` is over. -/
def release (T : Table κ τ ρ) (t : τ) (k : κ) : Option (τ × Option ρ) :=
  match T.pending k with
  | none => none
  | some (t', v) => if t' = t then none else some (t', v)

/-- `COMMIT`: the writes of `t` become the committed rows. -/
def commit (T : Table κ τ ρ) (t : τ) : Table κ τ ρ :=
  { committed := T.visible t, pending := T.release t }

/-- `ROLLBACK`: the writes of `t` are forgotten. -/
def rollback (T : Table κ τ ρ) (t : τ) : Table κ τ ρ :=
  { T with pending := T.release t }

variable (T : Table κ τ ρ) (t : τ) (k : κ)

theorem committed_commit_of_owner {v : Option ρ} (h : T.pending k = some (t, v)) :
    (T.commit t).committed k = v := by
  simp only [commit, visible, h, if_true]

theorem committed_commit_of_not_owner (h : ∀ v, T.pending k ≠ some (t, v)) :
    (T.commit t).committed k = T.committed k := by
  simp only [commit, visible]
  rcases hp : T.pending k with _ | ⟨t', v⟩
  · rfl
  · have hne : t' ≠ t := fun heq => h v (by rw [hp, heq])
    simp only [if_neg hne]

theorem release_eq_some (u : τ) (k : κ) (v : Option ρ) :
    T.release t k = some (u, v) ↔ T.pending k = some (u, v) ∧ u ≠ t := by
  simp only [release]
  rcases hp : T.pending k with _ | ⟨t', w⟩
  · simp
  · by_cases ht : t' = t
    · simp only [if_pos ht, reduceCtorEq, Option.some.injEq, Prod.mk.injEq, false_iff, not_and,
        not_not]
      rintro ⟨rfl, _⟩
      exact ht
    · simp only [if_neg ht, Option.some.injEq, Prod.mk.injEq, iff_self_and]
      rintro ⟨rfl, _⟩
      exact ht

theorem pending_commit_eq_some (u : τ) (k : κ) (v : Option ρ) :
    (T.commit t).pending k = some (u, v) ↔ T.pending k = some (u, v) ∧ u ≠ t :=
  release_eq_some T t u k v

theorem pending_rollback_eq_some (u : τ) (k : κ) (v : Option ρ) :
    (T.rollback t).pending k = some (u, v) ↔ T.pending k = some (u, v) ∧ u ≠ t :=
  release_eq_some T t u k v

/-- With no write of its own, a transaction sees the committed row. -/
theorem visible_of_not_owner (h : ∀ v, T.pending k ≠ some (t, v)) : T.visible t k = T.committed k :=
  committed_commit_of_not_owner T t k h

/-- A row a transaction sees is committed, or its own uncommitted write. -/
theorem visible_eq_some (row : ρ) (h : T.visible t k = some row) :
    T.committed k = some row ∨ T.pending k = some (t, some row) := by
  simp only [visible] at h
  rcases hp : T.pending k with _ | ⟨t', v⟩
  · rw [hp] at h
    exact .inl h
  · rw [hp] at h
    by_cases ht : t' = t
    · simp only [if_pos ht] at h
      exact .inr (by rw [ht, h])
    · simp only [if_neg ht] at h
      exact .inl h

theorem free_iff : T.free t k = true ↔ ∀ u v, T.pending k = some (u, v) → u = t := by
  simp only [free]
  rcases hp : T.pending k with _ | ⟨t', w⟩
  · simp
  · simp only [beq_iff_eq, Option.some.injEq, Prod.mk.injEq]
    exact ⟨fun h u v huv => huv.1 ▸ h, fun h => h t' w ⟨rfl, rfl⟩⟩

end Transactions

section Writes

variable [DecidableEq κ]

/-- Record an uncommitted write of `t`. -/
def write (T : Table κ τ ρ) (t : τ) (k : κ) (v : Option ρ) : Table κ τ ρ :=
  { T with pending := Function.update T.pending k (some (t, v)) }

/-- `UPDATE` by key as a transaction of its own. -/
def updateNow (T : Table κ τ ρ) (k : κ) (f : ρ → Option ρ) : Option (Table κ τ ρ) :=
  match (T.committed k).bind f with
  | none => some T
  | some row =>
    match T.pending k with
    | none => some { T with committed := Function.update T.committed k (some row) }
    | some _ => none

@[simp] theorem pending_write_self (T : Table κ τ ρ) (t : τ) (k : κ) (v : Option ρ) :
    (T.write t k v).pending k = some (t, v) := by
  simp [write]

theorem pending_write_of_ne (T : Table κ τ ρ) (t : τ) {k k' : κ} (v : Option ρ) (h : k' ≠ k) :
    (T.write t k v).pending k' = T.pending k' := by
  simp only [write, Function.update_of_ne h]

/-- A self-committing update either matches no row, or replaces an unlocked
    one. -/
theorem updateNow_cases (T T' : Table κ τ ρ) {k : κ} {f : ρ → Option ρ}
    (h : T.updateNow k f = some T') :
    (T' = T ∧ (T.committed k).bind f = none) ∨
      (∃ old row, T.committed k = some old ∧ f old = some row ∧ T.pending k = none ∧
        T' = { T with committed := Function.update T.committed k (some row) }) := by
  simp only [updateNow] at h
  rcases hb : (T.committed k).bind f with _ | row
  · rw [hb] at h
    simp only [Option.some.injEq] at h
    exact .inl ⟨h.symm, rfl⟩
  · rw [hb] at h
    rcases Option.bind_eq_some_iff.mp hb with ⟨old, hold, hf⟩
    rcases hp : T.pending k with _ | w
    · rw [hp] at h
      simp only [Option.some.injEq] at h
      exact .inr ⟨old, row, hold, hf, rfl, h.symm⟩
    · rw [hp] at h
      cases h

end Writes

section Statements

variable [DecidableEq κ] [DecidableEq τ]

/-- `INSERT ... ON CONFLICT DO NOTHING`, with whether a row was inserted. -/
def insertOnConflictDoNothing (T : Table κ τ ρ) (t : τ) (k : κ) (row : ρ) :
    Option (Table κ τ ρ × Bool) :=
  if T.free t k then
    match T.visible t k with
    | none => some (T.write t k (some row), true)
    | some _ => some (T, false)
  else none

/-- `DELETE` by key. A key without a visible row is not waited for. -/
def delete (T : Table κ τ ρ) (t : τ) (k : κ) : Option (Table κ τ ρ) :=
  match T.visible t k with
  | none => some T
  | some _ => if T.free t k then some (T.write t k none) else none

/-- `UPDATE` by key. `f` answers the new row, or `none` when the rest of the
    `WHERE` clause does not hold of the row. -/
def update (T : Table κ τ ρ) (t : τ) (k : κ) (f : ρ → Option ρ) : Option (Table κ τ ρ) :=
  match (T.visible t k).bind f with
  | none => some T
  | some row => if T.free t k then some (T.write t k (some row)) else none

/-- An insert waits for other writers, then either finds a row and does
    nothing, or finds none and writes its own. -/
theorem insertOnConflictDoNothing_cases (T T' : Table κ τ ρ) {t : τ} {k : κ} {row : ρ} {b : Bool}
    (h : T.insertOnConflictDoNothing t k row = some (T', b)) :
    T.free t k = true ∧
      ((b = false ∧ T' = T ∧ ∃ old, T.visible t k = some old) ∨
        (b = true ∧ T' = T.write t k (some row) ∧ T.visible t k = none)) := by
  simp only [insertOnConflictDoNothing] at h
  split at h
  · rename_i hfree
    refine ⟨hfree, ?_⟩
    rcases hv : T.visible t k with _ | old
    · rw [hv] at h
      simp only [Option.some.injEq, Prod.mk.injEq] at h
      exact .inr ⟨h.2.symm, h.1.symm, rfl⟩
    · rw [hv] at h
      simp only [Option.some.injEq, Prod.mk.injEq] at h
      exact .inl ⟨h.2.symm, h.1.symm, old, rfl⟩
  · cases h

/-- A delete either finds nothing to delete, or locks the row and marks it
    gone. -/
theorem delete_cases (T T' : Table κ τ ρ) {t : τ} {k : κ} (h : T.delete t k = some T') :
    (T' = T ∧ T.visible t k = none) ∨
      (T' = T.write t k none ∧ T.free t k = true ∧ ∃ old, T.visible t k = some old) := by
  simp only [delete] at h
  rcases hv : T.visible t k with _ | old
  · rw [hv] at h
    simp only [Option.some.injEq] at h
    exact .inl ⟨h.symm, rfl⟩
  · rw [hv] at h
    simp only [Option.ite_none_right_eq_some, Option.some.injEq] at h
    exact .inr ⟨h.2.symm, h.1, old, rfl⟩

/-- An update either matches no row, or locks the row and writes it anew. -/
theorem update_cases (T T' : Table κ τ ρ) {t : τ} {k : κ} {f : ρ → Option ρ}
    (h : T.update t k f = some T') :
    T' = T ∨ ∃ old row, T.visible t k = some old ∧ f old = some row ∧
      T' = T.write t k (some row) := by
  simp only [update] at h
  rcases hb : (T.visible t k).bind f with _ | row
  · rw [hb] at h
    simp only [Option.some.injEq] at h
    exact .inl h.symm
  · rw [hb] at h
    simp only [Option.ite_none_right_eq_some, Option.some.injEq] at h
    rcases Option.bind_eq_some_iff.mp hb with ⟨old, hold, hf⟩
    exact .inr ⟨old, row, hold, hf, h.2.symm⟩

end Statements

/-- Two tables have the same rows and the same locks at the keys in `P`. -/
def AgreeOn (P : κ → Prop) (T U : Table κ τ ρ) : Prop :=
  ∀ k, P k → T.committed k = U.committed k ∧ T.pending k = U.pending k

namespace AgreeOn

variable {P : κ → Prop} {T U : Table κ τ ρ}

theorem deleteWhere (h : AgreeOn P T U) (p : ρ → Bool) :
    AgreeOn P (T.deleteWhere p) (U.deleteWhere p) := by
  intro k hk
  rcases h k hk with ⟨hc, hp⟩
  simp [Table.deleteWhere, hc, hp]

section Transactions

variable [DecidableEq τ]

theorem visible (h : AgreeOn P T U) (t : τ) (k : κ) (hk : P k) : T.visible t k = U.visible t k := by
  rcases h k hk with ⟨hc, hp⟩
  simp only [Table.visible, hc, hp]

theorem free (h : AgreeOn P T U) (t : τ) (k : κ) (hk : P k) : T.free t k = U.free t k := by
  simp only [Table.free, (h k hk).2]

theorem release (h : AgreeOn P T U) (t : τ) (k : κ) (hk : P k) : T.release t k = U.release t k := by
  simp only [Table.release, (h k hk).2]

theorem commit (h : AgreeOn P T U) (t : τ) : AgreeOn P (T.commit t) (U.commit t) :=
  fun k hk => ⟨h.visible t k hk, h.release t k hk⟩

theorem rollback (h : AgreeOn P T U) (t : τ) : AgreeOn P (T.rollback t) (U.rollback t) :=
  fun k hk => ⟨(h k hk).1, h.release t k hk⟩

end Transactions

section Writes

variable [DecidableEq κ]

theorem write (h : AgreeOn P T U) (t : τ) (k : κ) (v : Option ρ) :
    AgreeOn P (T.write t k v) (U.write t k v) := by
  intro k' hk'
  refine ⟨(h k' hk').1, ?_⟩
  by_cases heq : k' = k
  · subst heq
    rw [pending_write_self, pending_write_self]
  · rw [pending_write_of_ne T t v heq, pending_write_of_ne U t v heq]
    exact (h k' hk').2

theorem updateNow (h : AgreeOn P T U) (k : κ) (hk : P k) (f : ρ → Option ρ) (T' : Table κ τ ρ)
    (hT : T.updateNow k f = some T') : ∃ U', U.updateNow k f = some U' ∧ AgreeOn P T' U' := by
  rcases updateNow_cases T T' hT with ⟨rfl, hnone⟩ | ⟨old, row, hold, hrow, hfree, rfl⟩
  · rw [(h k hk).1] at hnone
    exact ⟨U, by simp only [Table.updateNow, hnone], h⟩
  · rw [(h k hk).1] at hold
    rw [(h k hk).2] at hfree
    refine ⟨{ U with committed := Function.update U.committed k (some row) }, ?_, ?_⟩
    · simp [Table.updateNow, hold, hrow, hfree]
    · intro k' hk'
      refine ⟨?_, (h k' hk').2⟩
      by_cases heq : k' = k
      · subst heq
        simp
      · simp only [Function.update_of_ne heq]
        exact (h k' hk').1

end Writes

section Statements

variable [DecidableEq κ] [DecidableEq τ]

theorem insertOnConflictDoNothing (h : AgreeOn P T U) (t : τ) (k : κ) (hk : P k) (row : ρ)
    (T' : Table κ τ ρ) (b : Bool) (hT : T.insertOnConflictDoNothing t k row = some (T', b)) :
    ∃ U', U.insertOnConflictDoNothing t k row = some (U', b) ∧ AgreeOn P T' U' := by
  rcases insertOnConflictDoNothing_cases T T' hT with
    ⟨hfree, ⟨rfl, rfl, old, hold⟩ | ⟨rfl, rfl, hnone⟩⟩
  · rw [h.free t k hk] at hfree
    rw [h.visible t k hk] at hold
    exact ⟨U, by simp only [Table.insertOnConflictDoNothing, hfree, if_true, hold], h⟩
  · rw [h.free t k hk] at hfree
    rw [h.visible t k hk] at hnone
    exact ⟨U.write t k (some row),
      by simp only [Table.insertOnConflictDoNothing, hfree, if_true, hnone], h.write t k _⟩

theorem delete (h : AgreeOn P T U) (t : τ) (k : κ) (hk : P k) (T' : Table κ τ ρ)
    (hT : T.delete t k = some T') : ∃ U', U.delete t k = some U' ∧ AgreeOn P T' U' := by
  rcases delete_cases T T' hT with ⟨rfl, hnone⟩ | ⟨rfl, hfree, old, hold⟩
  · rw [h.visible t k hk] at hnone
    exact ⟨U, by simp only [Table.delete, hnone], h⟩
  · rw [h.free t k hk] at hfree
    rw [h.visible t k hk] at hold
    exact ⟨U.write t k none, by simp only [Table.delete, hold, hfree, if_true], h.write t k _⟩

end Statements

end AgreeOn

end Table

end ReadCommitted
