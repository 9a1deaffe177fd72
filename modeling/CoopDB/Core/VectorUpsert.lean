import CoopDB.Core.Identifiers
import CoopDB.Core.Mcp
import CoopDB.Lib.Fallible

/-!
# Upserting Vectors

`vector_upsert` exists twice: as a tool in `internal/mcp/tools.go`, and as a method of
the Python client. Both write one `INSERT ... ON CONFLICT` for all rows, with three
placeholders a row, and send the values of the rows as parameters.

The tool is a program that calls the `Doer`: what it returns depends on what the calls
return, and the calls it makes are part of what it does. `ToolProgram` has them as
steps.

A `float64` is the literal that `encoding/json` writes for it. `%g` is another way to
write the same digits: the shortest that give the number back.

The values of a Python row are objects of any type. What is known of them is how
`json.dumps`, iteration and `repr(float(x))` take them.

## Main definitions

* `PyObjects`, `vectorUpsert`: The method of the client.
-/

namespace CoopDB

open Fallible (ensure require)

/-- A decimal number: its digits without zeros on either side, and how many of them
    stand before the point. -/
structure Decimal where
  negative : Bool
  digits : List Char
  point : Int

/-- The exponent of a literal. -/
def exponentOf : List Char → Int
  | _ :: '-' :: digits => -(Nat.ofDigitChars 10 digits 0 : Int)
  | _ :: '+' :: digits => Nat.ofDigitChars 10 digits 0
  | _ :: digits => Nat.ofDigitChars 10 digits 0
  | [] => 0

/-- The number a literal of JSON stands for. -/
def Decimal.ofLiteral (literal : List Char) : Decimal :=
  let negative := literal.head? == some '-'
  let text := if negative then literal.drop 1 else literal
  let whole := text.takeWhile Char.isDigit
  let behind := text.drop whole.length
  let fraction := if behind.head? == some '.' then (behind.drop 1).takeWhile Char.isDigit else []
  let exponent := exponentOf
    (if behind.head? == some '.' then behind.drop (1 + fraction.length) else behind)
  let zeros := (whole ++ fraction).takeWhile (· == '0')
  let digits := ((whole ++ fraction).drop zeros.length).reverse.dropWhile (· == '0')
  { negative := negative, digits := digits.reverse
    point := if digits.isEmpty then 0 else whole.length + exponent - zeros.length }

/-- The `%e` of a format. The exponent has two digits at least. -/
def Decimal.scientific (d : Decimal) : String :=
  let exponent := d.point - 1
  let fraction := if d.digits.length > 1 then '.' :: d.digits.drop 1 else []
  String.ofList (d.digits.take 1 ++ fraction) ++ "e" ++ (if exponent < 0 then "-" else "+") ++
    (if exponent.natAbs < 10 then "0" else "") ++ toString exponent.natAbs

/-- The `%f` of a format, with as many digits behind the point as there are. -/
def Decimal.positional (d : Decimal) : String :=
  let whole :=
    if d.point ≤ 0 then ['0']
    else d.digits.take d.point.toNat ++ List.replicate (d.point.toNat - d.digits.length) '0'
  let fraction := List.replicate (-d.point).toNat '0' ++ d.digits.drop d.point.toNat
  String.ofList (whole ++ if d.digits.drop d.point.toNat = [] then [] else '.' :: fraction)

/-- The `%g` of a Go format: without a precision, `%e` is used for an exponent below
    `-4` or from `6` on. -/
def goFormatG (literal : String) : String :=
  let d := Decimal.ofLiteral literal.toList
  (if d.negative then "-" else "") ++
    (if d.point - 1 < -4 ∨ d.point - 1 ≥ 6 then d.scientific else d.positional)

/-- `formatVector`. -/
def formatVector (v : List String) : String :=
  "[" ++ ",".intercalate (v.map goFormatG) ++ "]"

/-! ### The tool -/

/-- A call of `SQLExecute`. -/
structure SqlCall where
  sql : String
  params : Json.Slice Json.Value
  idempotencyKey : String

/-- What a tool does: it returns, or it calls `SQLExecute` and goes on with what that
    returns. -/
inductive ToolProgram
  | done (result : ToolResult)
  | sqlExecute (call : SqlCall) (next : Except String SQLResult → ToolProgram)

/-- A tool over a `Doer`: what it returns, and the calls it has made. -/
def ToolProgram.run (d : Doer) : ToolProgram → ToolResult × List SqlCall
  | .done result => (result, [])
  | .sqlExecute call next =>
    let after := (next (d.sqlExecute call.sql call.params call.idempotencyKey)).run d
    (after.1, call :: after.2)

/-- A value that is asserted to be a `float64`. NaN does not come out of JSON. -/
def floatArg : Json.Value → Option String
  | .number literal => some literal
  | _ => none

/-- The text of an error that names a row. -/
def rowError (i : Nat) (what : String) : String :=
  "rows[" ++ toString i ++ "]" ++ what

/-- The loop over the elements of a vector, the first of them having the index `k`. -/
def upsertVector (i : Nat) : Nat → List Json.Value → Except String (List String)
  | _, [] => .ok []
  | k, v :: vs => do
    let f ← require (floatArg v) (rowError i (".vector[" ++ toString k ++ "] is not a number"))
    let fs ← upsertVector i (k + 1) vs
    return f :: fs

/-- What one row of a tool call binds. -/
structure BoundRow where
  id : String
  metadata : String
  vector : String

/-- The checks on one row, in their order. -/
def upsertRow (j : Json.GoJson) (i : Nat) (rawRow : Json.Value) : Except String BoundRow := do
  let row ← require (mapArg (some rawRow)) (rowError i " must be an object")
  let id := stringArg (Json.field "id" row)
  ensure (id ≠ "") (rowError i ".id is required")
  let rawMeta ← require (Json.field "metadata" row) (rowError i ".metadata is required")
  let fields ← require (mapArg (some rawMeta)) (rowError i ".metadata must be a JSON object")
  let metaJSON ← require (Json.Value.object fields).marshal
    (rowError i (".metadata: " ++ j.marshalError (.object fields)))
  let rawVec ← require ((listArg (Json.field "vector" row)).filter (· ≠ []))
    (rowError i ".vector must be a non-empty array")
  let vec ← upsertVector i 0 rawVec
  return { id := id, metadata := metaJSON, vector := formatVector vec }

/-- The placeholders of one row. -/
def valuesClause (base : Nat) : String :=
  "($" ++ toString (base + 1) ++ ", $" ++ toString (base + 2) ++ "::jsonb, $" ++
    toString (base + 3) ++ "::vector)"

/-- What a row adds to the parameters. -/
def BoundRow.params (row : BoundRow) : List Json.Value :=
  [.string row.id, .string row.metadata, .string row.vector]

/-- The loop over the rows, with what a row adds to the parameters, or why it is refused. -/
def bindRows {Row Param Err : Type} (bind : Nat → Row → Except Err (List Param)) :
    Nat → List Row → List String → List Param → Except Err (List String × List Param)
  | _, [], valuesClauses, params => .ok (valuesClauses, params)
  | i, row :: rows, valuesClauses, params => do
    let more ← bind i row
    bindRows bind (i + 1) rows (valuesClauses ++ [valuesClause (i * 3)]) (params ++ more)

/-- The loop of the tool. -/
def upsertRows (j : Json.GoJson) (rows : List Json.Value) :
    Except String (List String × List Json.Value) :=
  bindRows (fun i rawRow => (upsertRow j i rawRow).map BoundRow.params) 0 rows [] []

/-- The statement of the tool. -/
def Tools.upsertText (table idCol vectorCol : String) (valuesClauses : List String) : String :=
  "INSERT INTO \"" ++ table ++ "\" (\"" ++ idCol ++ "\", \"metadata\", \"" ++ vectorCol ++
    "\") VALUES " ++ ", ".intercalate valuesClauses ++ " ON CONFLICT (\"" ++ idCol ++
    "\") DO UPDATE SET \"metadata\" = EXCLUDED.\"metadata\", \"" ++ vectorCol ++
    "\" = EXCLUDED.\"" ++ vectorCol ++ "\""

/-- What the tool returns after its call. Keys are written in their order. -/
def upsertResult (j : Json.GoJson) : Except String SQLResult → ToolResult
  | .error e => errResult e
  | .ok result => jsonResult j (.object [("command", .string result.command),
      ("rows_affected", .number (toString result.rowsAffected))])

/-- The checks of the tool in their order, and what it calls `SQLExecute` with. -/
def Tools.upsertCall {j : Json.GoJson} (call : ToolCall j) : Except String SqlCall := do
  let table := stringArg (call.args "table")
  ensure (Mcp.isSafeIdent table) ("invalid table name: " ++ goQuote table)
  let idCol := stringArg (call.args "id_column")
  ensure (Mcp.isSafeIdent idCol) ("invalid id_column: " ++ goQuote idCol)
  let vectorCol := stringArg (call.args "vector_column")
  ensure (Mcp.isSafeIdent vectorCol) ("invalid vector_column: " ++ goQuote vectorCol)
  let rawRows ← require (call.args "rows") "required parameter 'rows' is missing"
  let rows ← require ((listArg (some rawRows)).filter (· ≠ [])) "rows must be a non-empty array"
  ensure (rows.length ≤ 100) "rows must contain at most 100 entries"
  let built ← upsertRows j rows
  return { sql := Tools.upsertText table idCol vectorCol built.1, params := some built.2
           idempotencyKey := "" }

/-- `handleVectorUpsert`. -/
def Tools.handleVectorUpsert {j : Json.GoJson} (call : ToolCall j) : ToolProgram :=
  match Tools.upsertCall call with
  | .error e => .done (errResult e)
  | .ok made => .sqlExecute made fun outcome => .done (upsertResult j outcome)

/-! ### The method of the client -/

/-- What Python does with the values of a row: `{}`, `json.dumps`, iterating over one,
    and `repr(float(x))`. `none` is an exception. -/
structure PyObjects (Obj : Type) where
  emptyDict : Obj
  dumps : Obj → Option String
  iter : Obj → Option (List Obj)
  reprFloat : Obj → Option String

/-- A parameter of the client: an object it was given, or a text it has made. -/
inductive PyParam (Obj : Type)
  | object (value : Obj)
  | text (s : String)
  deriving DecidableEq, Repr

/-- The exceptions of `vector_upsert` before it sends anything. -/
inductive UpsertError
  | keyError (key : String)
  | dumps
  | formatVector
  | validation (e : UnsafeIdentifier)
  deriving DecidableEq, Repr

section Client

variable {Obj : Type} (objects : PyObjects Obj)

/-- `_format_vector`. -/
def PyObjects.formatVector (v : Obj) : Option String := do
  let items ← objects.iter v
  let texts ← items.mapM objects.reprFloat
  return "[" ++ ",".intercalate texts ++ "]"

/-- The parameters of a row, in the order they are evaluated. -/
def PyObjects.rowParams (row : List (String × Obj)) : Except UpsertError (List (PyParam Obj)) := do
  let id ← require (row.lookup "id") (.keyError "id")
  let metadata ← require (objects.dumps ((row.lookup "metadata").getD objects.emptyDict)) .dumps
  let vector ← require (row.lookup "vector") (.keyError "vector")
  let text ← require (objects.formatVector vector) .formatVector
  return [.object id, .text metadata, .text text]

/-- The loop of the client. -/
def PyObjects.upsertRows (rows : List (List (String × Obj))) :
    Except UpsertError (List String × List (PyParam Obj)) :=
  bindRows (fun _ row => objects.rowParams row) 0 rows [] []

/-- The statement of the client. -/
def clientUpsertText (table : String) (valuesClauses : List String) : String :=
  "INSERT INTO " ++ table ++ " (" ++ ", ".intercalate ["id", "metadata", "embedding"] ++
    ") VALUES " ++ ", ".intercalate valuesClauses ++
    " ON CONFLICT (id) DO UPDATE SET metadata = EXCLUDED.metadata, embedding = EXCLUDED.embedding"

/-- `vector_upsert` of the client, up to `execute`: nothing to send, the statement it
    sends, or an exception. -/
def vectorUpsert (py : PyText) (table : String) (rows : List (List (String × Obj))) :
    Except UpsertError (Option (Statement (PyParam Obj))) :=
  if rows = [] then .ok none
  else do
    let built ← objects.upsertRows rows
    let name ← (safeIdent py table).mapError .validation
    return some { sql := clientUpsertText name built.1, params := built.2 }

end Client

end CoopDB
