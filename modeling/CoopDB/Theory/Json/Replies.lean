import CoopDB.Core.Audit
import CoopDB.Theory.Json.Document

/-!
# The Documents of the Gateway

Each document a handler writes, as the JSON value it is the text of. The
structs of the source have fields that are left out when they are empty, and
their encoder writes the fields in the order of their declaration.

## Main definitions

* `Response.document`, `Problem.document`, `CallResult.document`: The three
  documents.

## Theorems

* `marshal_response`, `marshal_problem`, `marshal_call`: Their texts.
* `valid_response`, `valid_problem`, `valid_call`: They are JSON where their parts are.
-/

namespace CoopDB

open Json

/-! ### Responses -/

/-- The document of a response. -/
def Response.document (r : Response) : Value :=
  .object ([("command", .string r.command)] ++
    unlessEmpty r.columns.isEmpty "columns" (.array (r.columns.map .string)) ++
    unlessEmpty r.rows.isEmpty "rows" (.array (r.rows.map .array)) ++
    [("rows_affected", .number (toString r.rowsAffected)),
      ("duration_ms", .number (toString r.durationMS))])

theorem marshalRows_eq (rows : List (List Value)) :
    marshalRows rows = marshalElems (rows.map .array) := by
  induction rows with
  | nil => rfl
  | cons row rows ih => rw [marshalRows, List.map_cons, marshalElems, ih, Value.marshal]

theorem isEmpty_of_marshalElems {rows : List (List Value)} {texts : List String}
    (h : marshalElems (rows.map .array) = some texts) : texts.isEmpty = rows.isEmpty := by
  cases rows with
  | nil =>
    cases h
    rfl
  | cons =>
    obtain ⟨text, tail, rfl, -, -⟩ := marshalElems_cons h
    rfl

theorem marshal_response {r : Response} {texts : List String}
    (h : marshalElems (r.rows.map .array) = some texts) : r.document.marshal = r.marshal := by
  have hcolumns : (Value.array (r.columns.map .string)).marshal =
      some (array (r.columns.map quote)) := by
    rw [Value.marshal, marshalElems_strings, Option.map_some]
  have hrows : (Value.array (r.rows.map .array)).marshal = some (array texts) := by
    rw [Value.marshal, h, Option.map_some]
  unfold Response.document
  rw [Value.marshal, marshalFields_append (marshalFields_append (marshalFields_append
    (rfl : marshalFields [("command", Value.string r.command)] =
      some [("command", quote r.command)])
    (marshalFields_unlessEmpty hcolumns)) (marshalFields_unlessEmpty hrows)) rfl]
  unfold Response.marshal
  rw [marshalRows_eq, h, ← isEmpty_of_marshalElems h]
  rfl

/-- A response whose rows are JSON is a JSON document. -/
theorem valid_response {r : Response} (hrows : validElems (r.rows.map .array) = true) :
    r.document.valid = true := by
  have hints : validFields [("rows_affected", .number (toString r.rowsAffected)),
      ("duration_ms", .number (toString r.durationMS))] = true := by
    rw [validFields, validFields, validFields, Value.valid, Value.valid, isNumber_toString,
      isNumber_toString]
    rfl
  unfold Response.document
  rw [Value.valid, validFields_append, validFields_append, validFields_append, hints,
    validFields_unlessEmpty (v := .array (r.rows.map .array)) hrows,
    validFields_unlessEmpty (v := .array (r.columns.map .string)) (validElems_strings r.columns)]
  rfl

/-! ### Problems -/

/-- The document of a problem. -/
def Problem.document (p : Problem) : Value :=
  .object ([("title", .string p.title), ("status", .number (toString p.status))] ++
    unlessEmpty (decide (p.detail = "")) "detail" (.string p.detail) ++
    unlessEmpty (decide (p.sqlState = "")) "sqlstate" (.string p.sqlState))

theorem marshal_problem (p : Problem) : p.document.marshal = some p.marshal := by
  have homit : ∀ name value : String, omitEmpty name value =
      if decide (value = "") then [] else [(name, quote value)] := by
    intro name value
    unfold omitEmpty
    by_cases h : value = ""
    · rw [if_pos h, if_pos (decide_eq_true h)]
    · rw [if_neg h, if_neg (by rwa [decide_eq_true_eq])]
  unfold Problem.document
  rw [Value.marshal, marshalFields_append (marshalFields_append
    (rfl : marshalFields [("title", Value.string p.title),
      ("status", .number (toString p.status))] = some [("title", quote p.title),
      ("status", toString p.status)])
    (marshalFields_unlessEmpty rfl)) (marshalFields_unlessEmpty rfl)]
  unfold Problem.marshal
  rw [homit, homit]
  rfl

/-- A problem is a JSON document. -/
theorem valid_problem (p : Problem) : p.document.valid = true := by
  have hhead : validFields [("title", .string p.title), ("status", .number (toString p.status))] =
      true := by
    change (true && (isNumber (toString p.status).toList && true)) = true
    rw [isNumber_toString]
    rfl
  unfold Problem.document
  rw [Value.valid, validFields_append, validFields_append, validFields_unlessEmpty rfl,
    validFields_unlessEmpty rfl, hhead]
  rfl

/-! ### Results of procedures -/

/-- The document of a result that is no replay. -/
def CallResult.document (r : CallResult) : Value :=
  .object [("procedure", .string r.procedure), ("result", r.result.getD .null),
    ("duration_ms", .number (toString r.durationMS)), ("Replay", .bool false),
    ("CachedStatus", .number "0"), ("CachedBody", .null)]

theorem marshal_call (r : CallResult) : r.document.marshal = r.marshal := by
  unfold CallResult.document CallResult.marshal
  cases hresult : r.result with
  | none => rfl
  | some v =>
    rw [Option.getD_some]
    cases htext : v.marshal with
    | none | some => simp only [Value.marshal, marshalFields, htext]; rfl

/-- A result whose value is JSON is a JSON document. -/
theorem valid_call (r : CallResult) (hresult : (r.result.getD .null).valid = true) :
    r.document.valid = true := by
  change (true && ((r.result.getD .null).valid && (isNumber (toString r.durationMS).toList &&
    (true && (isNumber "0".toList && (true && true)))))) = true
  rw [hresult, isNumber_toString]
  decide

end CoopDB
