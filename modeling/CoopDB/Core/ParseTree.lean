import CoopDB.Core.Validator

/-!
# Statements Inside Statements

The tree `pg_query.Parse` returns, as far as statements are nested in it.
`Core.Validator` keeps the top-level node of a statement, which is all the
validator looks at. What the node stands for may depend on what is below it: a
`WITH` clause can hold any statement that changes data, and so can the `WITH`
clause of a statement nested anywhere inside.

A node has its kind, the queries of its own `WITH` clause, and the statements
nested in the rest of it: the two arms of a set operation, the sub-selects of a
`FROM` list or an expression, the source of an `INSERT`, the statement that is
explained. A list of `VALUES` is a `SelectStmt` too, with its rows in
`valuesLists`.

## Main definitions

* `TreeQuery`, `TreeQuery.query`: The parser, and the validator's view of it.
-/

namespace CoopDB

/-- The node is none of the four kinds of query that have a constructor of their
    own. -/
def Node.isUtility : Node → Bool
  | .selectStmt | .insertStmt _ | .updateStmt _ | .deleteStmt _ => false
  | _ => true

/-- The kind of a statement. `MERGE` is one the validator has no case for. -/
inductive StmtKind
  | select (valuesLists : Nat)
  | insert (returningList : Nat)
  | update (returningList : Nat)
  | delete (returningList : Nat)
  | merge (returningList : Nat)
  | utility (node : { n : Node // n.isUtility = true })

/-- The node of a kind. -/
def StmtKind.node : StmtKind → Node
  | .select _ => .selectStmt
  | .insert n => .insertStmt n
  | .update n => .updateStmt n
  | .delete n => .deleteStmt n
  | .merge _ => .other
  | .utility n => n.1

/-- The four statements that change rows. -/
def StmtKind.modifies : StmtKind → Bool
  | .insert _ | .update _ | .delete _ | .merge _ => true
  | _ => false

/-- A statement, with the queries of its `WITH` clause and the statements nested
    in the rest of it. -/
inductive Tree
  | stmt (kind : StmtKind) (withClause nested : List Tree)

/-- The kind of the outermost statement. -/
def Tree.kind : Tree → StmtKind
  | .stmt kind _ _ => kind

/-- The queries of the outermost `WITH` clause. -/
def Tree.withClause : Tree → List Tree
  | .stmt _ withClause _ => withClause

/-- The statements nested outside the outermost `WITH` clause. -/
def Tree.nested : Tree → List Tree
  | .stmt _ _ nested => nested

/-- The top-level node. -/
def Tree.node (t : Tree) : Node :=
  t.kind.node

/-- The parser with its whole trees, and the scanner. -/
structure TreeQuery where
  parse : String → Except String (List (Option Tree))
  scan : String → Except String (List (Int × Int))

/-- What the validator looks at. -/
def TreeQuery.query (p : TreeQuery) : PgQuery :=
  { parse := fun sql => (p.parse sql).map (List.map (Option.map Tree.node)), scan := p.scan }

end CoopDB
