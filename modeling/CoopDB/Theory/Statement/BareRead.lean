import CoopDB.Core.ParseTree
import CoopDB.Theory.Statement.Placeholders

/-!
# What IsSelect Says

The comment on `Result.IsSelect` promises a bare `SELECT`: it is false for a
`SELECT` around a write in a `WITH` clause and for `VALUES`. `classify` looks at
the kind of the outermost node, and both of these are a `SelectStmt` there.

A query of a `WITH` clause is searched as a whole, so what is nested in it is not
searched a second time for `WITH` clauses of its own.

## Main definitions

* `Inside`: A statement is another one or nested in it, by any number of steps.
* `OccursInWith`: Some statement of the tree has a `WITH` clause, and somewhere inside one
  of its queries there is a statement of the given kind.
* `BareRead`: A select of no `VALUES` list with no write in a `WITH` clause.
* `Tree.holdsWrite`, `Tree.writesInWith`: The walk over the tree.

## Theorems

* `holdsWrite_iff`, `writesInWith_iff`: The walk finds exactly what is there.
* `isSelect_iff`: `IsSelect` is set exactly for an outermost `SelectStmt`.
* `is_select_bare_iff`: `IsSelect` means a bare read exactly if an outermost `SelectStmt`
  has no `VALUES` list and no `WITH` clause of the tree holds a write.
* `reading_with_bare`: A select with a `WITH` clause inside another is a bare read.
* `write_behind_select`: A delete that is classified as a select.
-/

namespace CoopDB

open Json (Value)

/-- The first statement is the second one, or lies somewhere inside it. -/
inductive Inside (x : Tree) : Tree → Prop
  | refl : Inside x x
  | clause {w t : Tree} (hw : w ∈ t.withClause) (hx : Inside x w) : Inside x t
  | nested {c t : Tree} (hc : c ∈ t.nested) (hx : Inside x c) : Inside x t

/-- The first statement lies inside a query of a `WITH` clause, of the second one
    or of a statement inside it. -/
def OccursInWith (x t : Tree) : Prop :=
  ∃ u w, Inside u t ∧ w ∈ u.withClause ∧ Inside x w

/-- A select that is no `VALUES` list and in whose `WITH` clauses nothing is
    written. -/
def BareRead (t : Tree) : Prop :=
  t.kind = .select 0 ∧ ∀ x, OccursInWith x t → x.kind.modifies = false

mutual

/-- Some statement of the tree changes rows. -/
def Tree.holdsWrite : Tree → Bool
  | .stmt kind withClause nested =>
    kind.modifies || anyHoldsWrite withClause || anyHoldsWrite nested

/-- Some statement of the trees changes rows. -/
def anyHoldsWrite : List Tree → Bool
  | [] => false
  | t :: ts => t.holdsWrite || anyHoldsWrite ts

end

mutual

/-- Some statement inside a `WITH` clause of the tree changes rows. -/
def Tree.writesInWith : Tree → Bool
  | .stmt _ withClause nested => anyHoldsWrite withClause || anyWritesInWith nested

/-- Some statement inside a `WITH` clause of the trees changes rows. -/
def anyWritesInWith : List Tree → Bool
  | [] => false
  | t :: ts => t.writesInWith || anyWritesInWith ts

end

/-- The walk over a list of trees goes into each of them. -/
theorem anyHoldsWrite_iff (ts : List Tree) :
    anyHoldsWrite ts = true ↔ ∃ t ∈ ts, t.holdsWrite = true := by
  induction ts with
  | nil => simp [anyHoldsWrite]
  | cons t ts ih => simp [anyHoldsWrite, ih]

theorem anyWritesInWith_iff (ts : List Tree) :
    anyWritesInWith ts = true ↔ ∃ t ∈ ts, t.writesInWith = true := by
  induction ts with
  | nil => simp [anyWritesInWith]
  | cons t ts ih => simp [anyWritesInWith, ih]

/-- A tree holds a write at its root, in its `WITH` clause or in what is nested in it. -/
theorem holdsWrite_eq_true (t : Tree) :
    t.holdsWrite = true ↔ t.kind.modifies = true ∨ (∃ w ∈ t.withClause, w.holdsWrite = true) ∨
      ∃ c ∈ t.nested, c.holdsWrite = true := by
  rcases t with ⟨kind, withClause, nested⟩
  simp [Tree.holdsWrite, Tree.kind, Tree.withClause, Tree.nested, anyHoldsWrite_iff, or_assoc]

/-- The second walk looks for writes of any kind only once it is in a `WITH` clause. -/
theorem writesInWith_eq_true (t : Tree) :
    t.writesInWith = true ↔ (∃ w ∈ t.withClause, w.holdsWrite = true) ∨
      ∃ c ∈ t.nested, c.writesInWith = true := by
  rcases t with ⟨kind, withClause, nested⟩
  simp [Tree.writesInWith, Tree.withClause, Tree.nested, anyHoldsWrite_iff, anyWritesInWith_iff]

/-- A statement inside a statement inside a third is inside the third. -/
theorem Inside.trans {x y z : Tree} (hxy : Inside x y) (hyz : Inside y z) : Inside x z := by
  induction hyz with
  | refl => exact hxy
  | clause hw _ ih => exact .clause hw ih
  | nested hc _ ih => exact .nested hc ih

/-- The walk finds every write. -/
theorem holdsWrite_of_inside {x t : Tree} (hx : Inside x t) (hwrite : x.kind.modifies = true) :
    t.holdsWrite = true := by
  -- By induction on the way from the write up to the root.
  induction hx with
  | refl => exact (holdsWrite_eq_true x).mpr (.inl hwrite)
  | clause hw _ ih => exact (holdsWrite_eq_true _).mpr (.inr (.inl ⟨_, hw, ih⟩))
  | nested hc _ ih => exact (holdsWrite_eq_true _).mpr (.inr (.inr ⟨_, hc, ih⟩))

theorem sizeOf_lt_of_mem_withClause {w t : Tree} (hw : w ∈ t.withClause) : sizeOf w < sizeOf t := by
  rcases t with ⟨kind, withClause, nested⟩
  have hlt : sizeOf w < sizeOf withClause := List.sizeOf_lt_of_mem hw
  simp only [Tree.stmt.sizeOf_spec]
  omega

theorem sizeOf_lt_of_mem_nested {c t : Tree} (hc : c ∈ t.nested) : sizeOf c < sizeOf t := by
  rcases t with ⟨kind, withClause, nested⟩
  have hlt : sizeOf c < sizeOf nested := List.sizeOf_lt_of_mem hc
  simp only [Tree.stmt.sizeOf_spec]
  omega

/-- What the walk finds is there. -/
theorem inside_of_holdsWrite (t : Tree) (h : t.holdsWrite = true) :
    ∃ x, Inside x t ∧ x.kind.modifies = true := by
  -- Down the tree, to one of the children that the walk has found a write in.
  rcases (holdsWrite_eq_true t).mp h with hkind | ⟨w, hw, hhas⟩ | ⟨c, hc, hhas⟩
  · exact ⟨t, .refl, hkind⟩
  · rcases inside_of_holdsWrite w hhas with ⟨x, hx, hwrite⟩
    exact ⟨x, .clause hw hx, hwrite⟩
  · rcases inside_of_holdsWrite c hhas with ⟨x, hx, hwrite⟩
    exact ⟨x, .nested hc hx, hwrite⟩
termination_by sizeOf t
decreasing_by
  · exact sizeOf_lt_of_mem_withClause hw
  · exact sizeOf_lt_of_mem_nested hc

/-- The walk answers whether the tree holds a write. -/
theorem holdsWrite_iff (t : Tree) :
    t.holdsWrite = true ↔ ∃ x, Inside x t ∧ x.kind.modifies = true :=
  ⟨inside_of_holdsWrite t, fun ⟨_, hx, hwrite⟩ => holdsWrite_of_inside hx hwrite⟩

/-- A write in a `WITH` clause anywhere in the tree is found. The induction goes
    down to the statement that has the clause. -/
theorem writesInWith_of_inside {u t : Tree} (hu : Inside u t)
    (hwrite : ∃ w ∈ u.withClause, w.holdsWrite = true) : t.writesInWith = true := by
  induction hu with
  | refl => exact (writesInWith_eq_true u).mpr (.inl hwrite)
  | nested hc _ ih => exact (writesInWith_eq_true _).mpr (.inr ⟨_, hc, ih⟩)
  | clause hw hu _ =>
    -- The clause lies in a query of an outer clause, which is searched as a whole.
    rcases hwrite with ⟨v, hv, hhas⟩
    rcases (holdsWrite_iff v).mp hhas with ⟨x, hx, hmod⟩
    have hfound := holdsWrite_of_inside ((Inside.clause hv hx).trans hu) hmod
    exact (writesInWith_eq_true _).mpr (.inl ⟨_, hw, hfound⟩)

/-- What is found in a `WITH` clause is there. -/
theorem inside_of_writesInWith (t : Tree) (h : t.writesInWith = true) :
    ∃ u, Inside u t ∧ ∃ w ∈ u.withClause, w.holdsWrite = true := by
  rcases (writesInWith_eq_true t).mp h with hclause | ⟨c, hc, hhas⟩
  · exact ⟨t, .refl, hclause⟩
  · rcases inside_of_writesInWith c hhas with ⟨u, hu, hclause⟩
    exact ⟨u, .nested hc hu, hclause⟩
termination_by sizeOf t
decreasing_by exact sizeOf_lt_of_mem_nested hc

/-- The walk answers whether a write occurs in one of the `WITH` clauses. -/
theorem writesInWith_iff (t : Tree) :
    t.writesInWith = true ↔ ∃ x, OccursInWith x t ∧ x.kind.modifies = true := by
  constructor
  · intro h
    rcases inside_of_writesInWith t h with ⟨u, hu, w, hw, hhas⟩
    rcases (holdsWrite_iff w).mp hhas with ⟨x, hx, hwrite⟩
    exact ⟨x, ⟨u, w, hu, hw, hx⟩, hwrite⟩
  · rintro ⟨x, ⟨u, w, hu, hw, hx⟩, hwrite⟩
    exact writesInWith_of_inside hu ⟨w, hw, holdsWrite_of_inside hx hwrite⟩

/-- A bare read, as the walk over the tree decides it. -/
theorem bareRead_iff (t : Tree) : BareRead t ↔ t.kind = .select 0 ∧ t.writesInWith = false := by
  unfold BareRead
  refine and_congr_right fun _ => ?_
  -- The walk answers no exactly if none of the statements in a `WITH` clause writes.
  rw [← Bool.not_eq_true, writesInWith_iff, not_exists]
  exact forall_congr' fun x => by rw [not_and, Bool.not_eq_true]

/-- Only a `SelectStmt` is classified as a select. -/
theorem classify_eq_select (n : Node) : classify (some n) = "SELECT" ↔ n = .selectStmt := by
  cases n <;> simp only [classify, reduceCtorEq, iff_false] <;> decide

/-- The outermost statement is a `SelectStmt`. -/
def Tree.isSelectStmt (t : Tree) : Bool :=
  match t.kind with
  | .select _ => true
  | _ => false

theorem isSelectStmt_iff (t : Tree) : t.isSelectStmt = true ↔ t.node = .selectStmt := by
  unfold Tree.isSelectStmt Tree.node
  cases t.kind with
  | utility n =>
    -- The kinds that have a case of their own are kept out of `utility`.
    have hne : n.1 ≠ .selectStmt := by
      intro heq
      have hn := n.2
      rw [heq] at hn
      exact absurd hn (by decide)
    simp only [StmtKind.node, Bool.false_eq_true, false_iff]
    exact hne
  | _ => simp [StmtKind.node]

/-- `IsSelect` says that the outermost statement is a `SelectStmt`. -/
theorem isSelect_iff {p : TreeQuery} {cfg : ValidatorConfig} {sqlText : String}
    {params : List Value} {res : Result} {t : Tree} (hparse : p.parse sqlText = .ok [some t])
    (h : validate p.query cfg sqlText params = .ok res) :
    res.isSelect = true ↔ t.isSelectStmt = true := by
  rcases validate_eq_ok h with ⟨stmt, hstmt, _, rfl⟩
  -- The validator has seen the one node that the parser gives for the tree.
  have hnode : [stmt] = [some t.node] := by
    have hquery : p.query.parse sqlText = .ok [some t.node] := by
      simp only [TreeQuery.query, hparse]
      rfl
    exact Except.ok.inj (hstmt.symm.trans hquery)
  rw [List.singleton_inj.mp hnode, isSelectStmt_iff, ← classify_eq_select, decide_eq_true_iff]

/-- Of a statement that is accepted, `IsSelect` means a bare read if and only if
    the outermost statement, if it is a `SelectStmt`, has no `VALUES` list and no
    `WITH` clause in the tree holds a statement that changes rows. -/
theorem is_select_bare_iff (p : TreeQuery) (cfg : ValidatorConfig) (sqlText : String)
    (params : List Value) (res : Result) (t : Tree) (hparse : p.parse sqlText = .ok [some t])
    (h : validate p.query cfg sqlText params = .ok res) :
    (res.isSelect = true → BareRead t) ↔
      (t.isSelectStmt = true → t.kind = .select 0 ∧ t.writesInWith = false) := by
  rw [isSelect_iff hparse h, bareRead_iff]

/-- `WITH d AS (DELETE FROM t RETURNING id) SELECT id FROM d`. -/
def deleteBehindSelect : Tree :=
  .stmt (.select 0) [.stmt (.delete 1) [] []] []

/-- A parser that answers one tree, with no token that is a placeholder. -/
def parsesTo (t : Tree) : TreeQuery :=
  { parse := fun _ => .ok [some t], scan := fun _ => .ok [] }

/-- `WITH a AS (WITH b AS (SELECT id FROM t) SELECT id FROM b) SELECT id FROM a`. -/
def readingWith : Tree :=
  .stmt (.select 0) [.stmt (.select 0) [.stmt (.select 0) [] []] []] []

/-- A select whose `WITH` clause has one of its own, and both only read: it is
    classified as a select, and it is a bare read. -/
theorem reading_with_bare :
    ∃ res, validate (parsesTo readingWith).query ⟨262144, 1000⟩
        "WITH a AS (WITH b AS (SELECT id FROM t) SELECT id FROM b) SELECT id FROM a" [] = .ok res ∧
      res.isSelect = true ∧ BareRead readingWith ∧
      OccursInWith (.stmt (.select 0) [] []) readingWith := by
  refine ⟨_, rfl, rfl, ?_, ?_⟩
  · exact (is_select_bare_iff (parsesTo readingWith) ⟨262144, 1000⟩
      "WITH a AS (WITH b AS (SELECT id FROM t) SELECT id FROM b) SELECT id FROM a" [] _ _
      rfl rfl).mpr (fun _ => ⟨rfl, rfl⟩) rfl
  · exact ⟨readingWith, _, .refl, List.mem_singleton.mpr rfl,
      .clause (List.mem_singleton.mpr rfl) .refl⟩

/-- A delete in the `WITH` clause of a select: `IsSelect` is set, and rows are
    deleted. -/
theorem write_behind_select :
    ∃ res, validate (parsesTo deleteBehindSelect).query ⟨262144, 1000⟩
        "WITH d AS (DELETE FROM t RETURNING id) SELECT id FROM d" [] = .ok res ∧
      res.isSelect = true ∧ ¬ BareRead deleteBehindSelect := by
  refine ⟨_, rfl, rfl, fun hbare => ?_⟩
  have hwrite := hbare.2 (.stmt (.delete 1) [] []) ⟨deleteBehindSelect, .stmt (.delete 1) [] [],
    .refl, List.mem_singleton.mpr rfl, .refl⟩
  exact absurd hwrite (by decide)

end CoopDB
