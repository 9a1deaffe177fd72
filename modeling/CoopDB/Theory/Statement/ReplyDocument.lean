import CoopDB.Theory.Idempotency.SqlReplay
import CoopDB.Theory.Json.Replies

/-!
# The Document of a Successful Reply

What a client finds in the body of a 200: the command, the columns, the rows and
the number of affected rows, as `Execute` returned them.

The encoder writes the document as a whole or not at all. The handler drops its
error and sends what there is with the status 200, so a single value without a
JSON form anywhere in the rows, such as a NaN or a date after the year 9999, leaves
the client with an empty body. In all other cases the document carries the whole
result.

Empty columns and empty rows are left out of the document, and a missing field
is read as an empty list.

## Main definitions

* `Json.Value.hasForm`: Nothing in the value is without a JSON form.
* `Carries`: What a client reads in a body is the result.

## Theorems

* `marshal_isSome`: The encoder writes exactly the values that have a form.
* `document_carries`: The document of a response carries it.
* `responseBody_carries_iff`: When the body of a response carries it.
* `reply_carries_iff`: When the body of a 200 has the whole result.
-/

namespace CoopDB

open Json

mutual

/-- Nothing in the value is without a JSON form. -/
def Json.Value.hasForm : Value → Bool
  | .formless _ => false
  | .array vs => Json.formElems vs
  | .object fields => Json.formFields fields
  | _ => true

/-- The elements of an array. -/
def Json.formElems : List Value → Bool
  | [] => true
  | v :: vs => v.hasForm && Json.formElems vs

/-- The fields of an object. -/
def Json.formFields : List (String × Value) → Bool
  | [] => true
  | (_, v) :: fields => v.hasForm && Json.formFields fields

end

mutual

/-- A value as the encoder takes it. The numbers in it are written as literals of the
    grammar. -/
def Json.Value.encodable : Value → Bool
  | .number lit => isNumber lit.toList
  | .array vs => Json.encodableElems vs
  | .object fields => Json.encodableFields fields
  | _ => true

/-- The elements of an array. -/
def Json.encodableElems : List Value → Bool
  | [] => true
  | v :: vs => v.encodable && Json.encodableElems vs

/-- The fields of an object. -/
def Json.encodableFields : List (String × Value) → Bool
  | [] => true
  | (_, v) :: fields => v.encodable && Json.encodableFields fields

end

/-- The elements of a row. -/
def rowElems : Value → Option (List Value)
  | .array vs => some vs
  | _ => none

/-- The body is a JSON document, and what is read from its fields is the result:
    the command, the columns, the rows with their values in order, and the
    number of affected rows. -/
def Carries (body : Bytes) (r : Response) : Prop :=
  ∃ fields columns rows lit, documentOf body = some (.object fields) ∧
    field "command" fields = some (.string r.command) ∧
    sliceField (fun v => stringField (some v)) (field "columns" fields) = some columns ∧
    columns.getD [] = r.columns ∧
    sliceField rowElems (field "rows" fields) = some rows ∧ rows.getD [] = r.rows ∧
    field "rows_affected" fields = some (.number lit) ∧
    integerOf lit.toList = some r.rowsAffected

/-! ### The encoder -/

mutual

/-- What is encodable and has a form is valid. -/
theorem valid_of_hasForm : ∀ v : Value, v.encodable = true → v.hasForm = true → v.valid = true
  | .null, _, _ => rfl
  | .bool _, _, _ => rfl
  | .number _, h, _ => h
  | .formless _, _, h => h
  | .string _, _, _ => rfl
  | .array vs, h, hform => validElems_of_hasForm vs h hform
  | .object fields, h, hform => validFields_of_hasForm fields h hform

theorem validElems_of_hasForm :
    ∀ vs : List Value, encodableElems vs = true → formElems vs = true → validElems vs = true
  | [], _, _ => rfl
  | v :: vs, h, hform => by
      rw [encodableElems, Bool.and_eq_true] at h
      rw [formElems, Bool.and_eq_true] at hform
      rw [validElems, valid_of_hasForm v h.1 hform.1, validElems_of_hasForm vs h.2 hform.2]
      rfl

theorem validFields_of_hasForm :
    ∀ fields : List (String × Value), encodableFields fields = true → formFields fields = true →
      validFields fields = true
  | [], _, _ => rfl
  | (_, v) :: fields, h, hform => by
      rw [encodableFields, Bool.and_eq_true] at h
      rw [formFields, Bool.and_eq_true] at hform
      rw [validFields, valid_of_hasForm v h.1 hform.1, validFields_of_hasForm fields h.2 hform.2]
      rfl

end

mutual

/-- The encoder writes what has a form, and nothing else. -/
theorem marshal_isSome : ∀ v : Value, v.marshal.isSome = v.hasForm
  | .null => rfl
  | .bool _ => rfl
  | .number _ => rfl
  | .formless _ => rfl
  | .string _ => rfl
  | .array vs => by
      rw [Value.marshal, Option.isSome_map, marshalElems_isSome, Value.hasForm]
  | .object fields => by
      rw [Value.marshal, Option.isSome_map, marshalFields_isSome, Value.hasForm]

theorem marshalElems_isSome : ∀ vs : List Value, (marshalElems vs).isSome = formElems vs
  | [] => rfl
  | v :: vs => by
      rw [formElems, ← marshal_isSome v, ← marshalElems_isSome vs, marshalElems]
      cases v.marshal with
      | none => rfl
      | some =>
        cases marshalElems vs with
        | none | some => rfl

theorem marshalFields_isSome :
    ∀ fields : List (String × Value), (marshalFields fields).isSome = formFields fields
  | [] => rfl
  | (_, v) :: fields => by
      rw [formFields, ← marshal_isSome v, ← marshalFields_isSome fields, marshalFields]
      cases v.marshal with
      | none => rfl
      | some =>
        cases marshalFields fields with
        | none | some => rfl

end

theorem formElems_iff (vs : List Value) :
    formElems vs = true ↔ ∀ v ∈ vs, v.hasForm = true := by
  induction vs with
  | nil => simp [formElems]
  | cons v vs ih => rw [List.forall_mem_cons, ← ih, formElems, Bool.and_eq_true]

/-- A response has a text exactly if every value of its rows has a form. -/
theorem marshal_response_isSome_iff (r : Response) :
    r.marshal.isSome = true ↔ ∀ row ∈ r.rows, ∀ v ∈ row, v.hasForm = true := by
  have hrows : (marshalElems (r.rows.map .array)).isSome = true ↔
      ∀ row ∈ r.rows, ∀ v ∈ row, v.hasForm = true := by
    rw [marshalElems_isSome, formElems_iff, List.forall_mem_map]
    refine forall_congr' fun row => imp_congr_right fun _ => ?_
    rw [Value.hasForm, formElems_iff]
  -- Everything else in a response has a text.
  rw [← hrows, Response.marshal, marshalRows_eq]
  cases marshalElems (r.rows.map .array) with
  | none | some => rfl

/-! ### The document -/

/-- Every field of the document is read as the response has it. -/
theorem document_carries (r : Response) (body : Bytes) (h : documentOf body = some r.document) :
    Carries body r := by
  have hcolumns : (r.columns.map Value.string).mapM (fun v => stringField (some v)) =
      some r.columns := by
    refine mapM_written ?_
    exact fun x => rfl
  have hrows : (r.rows.map Value.array).mapM rowElems = some r.rows := by
    refine mapM_written ?_
    exact fun x => rfl
  -- An empty list is left out, and is read as a missing field.
  refine ⟨_, if r.columns.isEmpty then none else some r.columns,
    if r.rows.isEmpty then none else some r.rows, toString r.rowsAffected, h, ?_, ?_, ?_, ?_, ?_,
    ?_, integerOf_toString r.rowsAffected⟩
  · simp [field_append, field_cons, field_nil, field_unlessEmpty]
  · simp only [field_append, field_cons, field_nil, field_unlessEmpty, String.reduceEq, if_false,
      if_true, Option.none_or, Option.or_none]
    exact sliceField_unlessEmpty hcolumns
  · cases r.columns <;> rfl
  · simp only [field_append, field_cons, field_nil, field_unlessEmpty, String.reduceEq, if_false,
      if_true, Option.none_or, Option.or_none]
    exact sliceField_unlessEmpty hrows
  · cases r.rows <;> rfl
  · simp [field_append, field_cons, field_nil, field_unlessEmpty]

/-- The body of a response carries it exactly if every value of its rows has a
    form. -/
theorem responseBody_carries_iff {r : Response}
    (hrows : ∀ row ∈ r.rows, ∀ v ∈ row, v.encodable = true) :
    Carries (responseBody r) r ↔ ∀ row ∈ r.rows, ∀ v ∈ row, v.hasForm = true := by
  constructor
  · rintro ⟨fields, _, _, _, hdocument, _⟩
    rw [← marshal_response_isSome_iff]
    cases htext : r.marshal with
    | some => rfl
    | none =>
      -- Nothing is no document.
      have hnone : readDocument "" = none := rfl
      rw [responseBody, htext, Option.getD_none, documentOf, textOf_utf8, Option.bind_some, hnone]
        at hdocument
      cases hdocument
  · intro hform
    have hvalid : validElems (r.rows.map .array) = true := by
      refine validElems_of_forall fun v hv => ?_
      rcases List.mem_map.mp hv with ⟨row, hrow, rfl⟩
      refine validElems_of_forall fun v hv => ?_
      exact valid_of_hasForm v (hrows row hrow v hv) (hform row hrow v hv)
    rcases marshalElems_of_valid _ hvalid with ⟨texts, htexts⟩
    rcases marshal_of_valid _ (valid_response hvalid) with ⟨text, htext⟩
    refine document_carries r _ ?_
    rw [responseBody, ← marshal_response htexts, htext, Option.getD_some]
    exact documentOf_text (valid_response hvalid) htext

/-! ### The handler -/

/-- A 200 has the body of its response. -/
theorem finishSQL_ok {limit : Int} {response : Response}
    (h : (finishSQL limit (.ok response)).1.status = 200) :
    (finishSQL limit (.ok response)).1.body = responseBody response := by
  simp only [finishSQL] at h ⊢
  split
  case isTrue hlarge =>
    rw [if_pos hlarge] at h
    exact absurd h (by decide)
  case isFalse => rfl

/-- Whenever the handler executes and answers 200, its body carries the whole
    result exactly if every value of the rows has a JSON form. -/
theorem reply_carries_iff (q : PgQuery) (validator : ValidatorConfig) (executor : ExecutorConfig)
    (limit : Int) (c : Conn) (x : SqlRequest) (done : Executed) (response : Response)
    (hexec : (handleSQLExecute q validator executor limit c x).executed = some done)
    (hok : done.outcome = .ok response)
    (hstatus : (handleSQLExecute q validator executor limit c x).reply.status = 200)
    (hrows : ∀ row ∈ response.rows, ∀ v ∈ row, v.encodable = true) :
    Carries (handleSQLExecute q validator executor limit c x).reply.body response ↔
      ∀ row ∈ response.rows, ∀ v ∈ row, v.hasForm = true := by
  have hreply := (handleSQLExecute_executed q validator executor limit c x hexec).1
  rw [hok] at hreply
  rw [hreply] at hstatus
  rw [hreply, finishSQL_ok hstatus]
  exact responseBody_carries_iff hrows

/-- A select of one row, with a database that answers it. -/
def selectRow (row : List Value) : SqlRequest :=
  { workspaceID := "w", pgRole := "dbuser", readBody := .ok ()
    decoded := .ok { sql := "SELECT * FROM t", params := [] }, idemKey := "", begun := .ok proceed
    db := { acceptingScript with query := .ok ["x", "y"], rows := [.ok row] } }

/-- What comes of it on a connection that is used again. -/
def servedRow (row : List Value) : SqlHandled :=
  handleSQLExecute selectQuery ⟨262144, 1000⟩ ⟨5000000000, 5000000000, 0⟩ 0 usedConn (selectRow row)

/-- A null and an array of numbers reach the client. -/
theorem row_carried :
    ∃ response, Carries (servedRow [.null, .array [.number "1", .number "-0.5"]]).reply.body
        response ∧
      response.rows = [[.null, .array [.number "1", .number "-0.5"]]] := by
  refine ⟨_, (reply_carries_iff selectQuery ⟨262144, 1000⟩ ⟨5000000000, 5000000000, 0⟩ 0 usedConn
    (selectRow [.null, .array [.number "1", .number "-0.5"]]) _ _ rfl rfl rfl ?_).mpr ?_, rfl⟩
  · intro row hrow v hv
    rw [List.mem_singleton.mp hrow] at hv
    rcases List.mem_pair.mp hv with rfl | rfl
    · rfl
    · rfl
  · intro row hrow v hv
    rw [List.mem_singleton.mp hrow] at hv
    rcases List.mem_pair.mp hv with rfl | rfl
    · rfl
    · rfl

/-- The statement is committed, and its row answered 200 with an empty body, which
    carries nothing. -/
def AnsweredEmpty (row : List Value) : Prop :=
  ∃ done response, (servedRow row).executed = some done ∧ done.outcome = .ok response ∧
    done.committed = true ∧ (servedRow row).reply.status = 200 ∧
    (servedRow row).reply.body = [] ∧ ¬ Carries (servedRow row).reply.body response

/-- A NaN in a row, an infinite numeric and a date after the year 9999 are answered with
    an empty body. -/
theorem nan_answered_empty :
    AnsweredEmpty [.string "a", .formless .float] ∧
      AnsweredEmpty [.string "a", .formless .numeric] ∧
      AnsweredEmpty [.string "a", .formless .year] := by
  -- No document is read from an empty body.
  have hempty : ∀ response, ¬ Carries [] response := by
    rintro response ⟨fields, _, _, _, hdocument, _⟩
    have hnone : documentOf [] = none := rfl
    cases hnone.symm.trans hdocument
  exact ⟨⟨_, _, rfl, rfl, rfl, rfl, rfl, hempty _⟩, ⟨_, _, rfl, rfl, rfl, rfl, rfl, hempty _⟩,
    ⟨_, _, rfl, rfl, rfl, rfl, rfl, hempty _⟩⟩

end CoopDB
