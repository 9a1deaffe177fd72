import Mathlib.Data.List.Basic

/-!
# Inserting Into a Table at READ COMMITTED

A table that transactions insert rows into and search by any condition. The rows
have a primary key.

A row that was inserted is seen by its own transaction at once and by all others
once that transaction has committed. So the table has its committed rows, in the
order they were committed in, and the uncommitted ones with their transactions.
A transaction that inserts a key another one has inserted and not committed has
to wait for it, and one that inserts a key it can see gets an error. No other
condition of the rows keeps two transactions apart: each may search for a row,
find none and insert it.

## Main definitions

* `Table`: The committed and the uncommitted rows.

## Theorems

* `own_insert_self`, `own_commit_self`, `own_rollback_self`: What a transaction
  does to its own rows.
* `own_insert_of_ne`, `own_commit_of_ne`, `own_rollback_of_ne`: It does nothing
  to those of others.
-/

namespace InsertTable

/-- The committed rows, and the uncommitted ones with the transactions that
    inserted them. -/
structure Table (κ τ ρ : Type) where
  rows : List (κ × ρ)
  pending : List (τ × κ × ρ)

namespace Table

variable {κ τ ρ : Type} [DecidableEq κ] [DecidableEq τ]

/-- The uncommitted rows of a transaction. -/
def own (T : Table κ τ ρ) (t : τ) : List (κ × ρ) :=
  (T.pending.filter fun p => p.1 = t).map Prod.snd

/-- The rows a transaction sees. -/
def visible (T : Table κ τ ρ) (t : τ) : List (κ × ρ) :=
  T.rows ++ T.own t

/-- No row has the key, committed or not. -/
def insertable (T : Table κ τ ρ) (k : κ) : Bool :=
  T.rows.all (fun r => r.1 ≠ k) && T.pending.all fun p => p.2.1 ≠ k

/-- `INSERT`. -/
def insert (T : Table κ τ ρ) (t : τ) (k : κ) (row : ρ) : Table κ τ ρ :=
  { T with pending := T.pending ++ [(t, k, row)] }

/-- The uncommitted rows of the other transactions. -/
def others (T : Table κ τ ρ) (t : τ) : List (τ × κ × ρ) :=
  T.pending.filter fun p => p.1 ≠ t

/-- `COMMIT`. -/
def commit (T : Table κ τ ρ) (t : τ) : Table κ τ ρ :=
  { rows := T.visible t, pending := T.others t }

/-- `ROLLBACK`. -/
def rollback (T : Table κ τ ρ) (t : τ) : Table κ τ ρ :=
  { T with pending := T.others t }

omit [DecidableEq κ]

variable (T : Table κ τ ρ) (t : τ)

theorem own_insert_self (k : κ) (row : ρ) : (T.insert t k row).own t = T.own t ++ [(k, row)] := by
  unfold own insert
  rw [List.filter_append, List.map_append, List.filter_cons, if_pos (decide_eq_true rfl)]
  rfl

theorem own_insert_of_ne {t u : τ} (h : u ≠ t) (k : κ) (row : ρ) :
    (T.insert t k row).own u = T.own u := by
  have hfalse : ¬ decide (t = u) = true := by
    rw [decide_eq_true_eq]
    exact fun heq => h heq.symm
  unfold own insert
  rw [List.filter_append, List.map_append, List.filter_cons, if_neg hfalse]
  exact List.append_nil _

theorem own_others_self : ((T.others t).filter fun p => p.1 = t) = [] := by
  rw [List.filter_eq_nil_iff]
  intro p hp
  rw [others, List.mem_filter, decide_eq_true_eq] at hp
  rw [decide_eq_true_eq]
  exact hp.2

theorem own_others_of_ne {t u : τ} (h : u ≠ t) :
    ((T.others t).filter fun p => p.1 = u) = T.pending.filter fun p => p.1 = u := by
  rw [others, List.filter_filter]
  refine List.filter_congr fun p _ => ?_
  by_cases hp : p.1 = u
  · have hne : p.1 ≠ t := fun heq => h (hp.symm.trans heq)
    rw [decide_eq_true hp, decide_eq_true hne, Bool.and_self]
  · rw [decide_eq_false hp, Bool.false_and]

theorem own_commit_self : (T.commit t).own t = [] := by
  rw [own, commit, own_others_self]
  rfl

theorem own_commit_of_ne {t u : τ} (h : u ≠ t) : (T.commit t).own u = T.own u := by
  rw [own, commit, own_others_of_ne T h, own]

theorem own_rollback_self : (T.rollback t).own t = [] := by
  rw [own, rollback, own_others_self]
  rfl

theorem own_rollback_of_ne {t u : τ} (h : u ≠ t) : (T.rollback t).own u = T.own u := by
  rw [own, rollback, own_others_of_ne T h, own]

end Table

end InsertTable
