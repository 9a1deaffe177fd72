import CoopDB.Core.Tenant

/-!
# Vector Indexes

`EnsureIVFFlatIndex` of `internal/vector/vector.go` over the relations of a
schema.

Postgres cuts a name off after 63 bytes, and has one name for one relation. The
identifiers that are let pass have one byte to a character. Creating an index
fails only if its name is taken.

The name that is looked for is a parameter of the query. A long one is compared
as it is or cut off when it is read, which is left open here: `readName` is
either.

## Main definitions

* `ensureIVFFlatIndex`, `ensureAll`: One call, and one after the other.
-/

namespace CoopDB

/-- `isSafeIdent`, the same restriction as `isSafeRoleName`. -/
def isSafeIdent (s : String) : Bool :=
  isSafeRoleName s

/-- What a relation is. -/
inductive RelationKind
  | ivfflat (table column : String) (lists : Int)
  | otherIndex
  | noIndex
  deriving DecidableEq

/-- The relation is in `pg_indexes`. -/
def RelationKind.isIndex : RelationKind → Bool
  | .noIndex => false
  | _ => true

/-- A relation of the schema. -/
structure Relation where
  name : String
  kind : RelationKind
  length_name : name.toList.length ≤ 63
  deriving DecidableEq

/-- The name of a relation as Postgres stores it. -/
def truncateName (name : String) : String :=
  String.ofList (name.toList.take 63)

/-- The name of the index on a column of a table. -/
def indexName (table column : String) : String :=
  table ++ "_" ++ column ++ "_ivfflat_idx"

/-- A call, with the error of its first query and the answer to its second. -/
structure IndexCall where
  table : String
  column : String
  minRows : Int
  lists : Int
  existsError : Option String
  count : Except String Int

/-- The table and the column of a call. -/
def IndexCall.pair (c : IndexCall) : String × String :=
  (c.table, c.column)

/-- An ivfflat index, under the name that is stored. -/
def newIndex (name table column : String) (lists : Int) : Relation where
  name := truncateName name
  kind := .ivfflat table column lists
  length_name := by
    rw [truncateName, String.toList_ofList, List.length_take]
    exact Nat.min_le_left _ _

/-- `CREATE INDEX`. -/
def createIndex (name table column : String) (lists : Int) (relations : List Relation) :
    Except String Bool × List Relation :=
  if relations.any (·.name == truncateName name) then
    (.error ("ERROR: relation \"" ++ truncateName name ++ "\" already exists (SQLSTATE 42P07)"),
      relations)
  else (.ok true, relations ++ [newIndex name table column lists])

/-- The number of lists, if none is given. -/
def listsFor (lists rowCount : Int) : Int :=
  if lists ≤ 0 then (if rowCount > 1000000 then 1000 else 100) else lists

/-- `EnsureIVFFlatIndex`. -/
def ensureIVFFlatIndex (readName : String → String) (relations : List Relation) (c : IndexCall) :
    Except String Bool × List Relation :=
  if !isSafeIdent c.table || !isSafeIdent c.column then
    (.error "vector.EnsureIVFFlatIndex: unsafe identifier", relations)
  else
    match c.existsError with
    | some e => (.error e, relations)
    | none =>
      if relations.any (fun r => r.kind.isIndex && r.name == readName (indexName c.table c.column))
      then (.ok false, relations)
      else
        match c.count with
        | .error e => (.error e, relations)
        | .ok rowCount =>
          if rowCount < c.minRows then (.ok false, relations)
          else
            createIndex (indexName c.table c.column) c.table c.column (listsFor c.lists rowCount)
              relations

/-- The relations after some calls. -/
def ensureAll (readName : String → String) (relations : List Relation) (calls : List IndexCall) :
    List Relation :=
  calls.foldl (fun relations c => (ensureIVFFlatIndex readName relations c).2) relations

end CoopDB
