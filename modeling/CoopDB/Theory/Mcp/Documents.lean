import CoopDB.Core.Mcp
import CoopDB.Theory.Json.Replies

/-!
# The Documents Between Client and Gateway

Each document that passes between `Client` and the handlers, and what the reader
at the other end makes of it.

The gateway leaves empty fields out and the client reads a missing field as the
zero value, so the two structs for a response agree on everything but one point:
columns and rows that are empty come back as nil.

## Main definitions

* `Response.received`: A response as the client has it.

## Theorems

* `unmarshal_response`, `decode_response`: A response.
* `gatewayError_problem`: The error of a problem document.
* `unmarshal_call`, `decode_call`: The result of a procedure.
* `decodeBody_sql`, `decodeBody_rpc`: The two requests.
-/

namespace CoopDB

open Json

/-! ### Responses -/

/-- A response as the client has it. -/
def Response.received (r : Response) : SQLResult :=
  { command := r.command
    columns := if r.columns.isEmpty then none else some r.columns
    rows := if r.rows.isEmpty then none else some (r.rows.map some)
    rowsAffected := r.rowsAffected
    durationMS := r.durationMS }

/-- What comes through the reader and the encoder as it was: the values of the
    rows, and two integers of 64 bits. -/
structure Response.Stable (j : GoJson) (r : Response) : Prop where
  rows : ∀ row ∈ r.rows, ∀ v ∈ row, j.decode v = some v ∧ v.depth + 3 ≤ maxNestingDepth
  rowsAffected : -2 ^ 63 ≤ r.rowsAffected ∧ r.rowsAffected < 2 ^ 63
  durationMS : -2 ^ 63 ≤ r.durationMS ∧ r.durationMS < 2 ^ 63

section Stable

variable {j : GoJson} {r : Response}

theorem Response.Stable.valid_rows (h : r.Stable j) : validElems (r.rows.map .array) = true := by
  refine validElems_of_forall ?_
  intro v hv
  obtain ⟨row, hrow, rfl⟩ := List.mem_map.mp hv
  exact validElems_of_forall fun v hv => valid_of_decode j v v (h.rows row hrow v hv).1

theorem Response.Stable.depth_rows (h : r.Stable j) :
    (Value.array (r.rows.map .array)).depth ≤ maxNestingDepth - 1 := by
  have helems : depthElems (r.rows.map .array) ≤ maxNestingDepth - 2 := by
    refine depthElems_le ?_
    intro v hv
    obtain ⟨row, hrow, rfl⟩ := List.mem_map.mp hv
    have hrow : depthElems row ≤ maxNestingDepth - 3 :=
      depthElems_le fun v hv => by have := (h.rows row hrow v hv).2; omega
    rw [Value.depth]
    unfold maxNestingDepth at hrow ⊢
    omega
  rw [Value.depth]
  unfold maxNestingDepth at helems ⊢
  omega

theorem Response.Stable.valid (h : r.Stable j) : r.document.valid = true :=
  valid_response h.valid_rows

theorem Response.Stable.depth (h : r.Stable j) : r.document.depth ≤ maxNestingDepth := by
  have hcolumns : (Value.array (r.columns.map .string)).depth ≤ maxNestingDepth - 1 := by
    rw [Value.depth, depthElems_strings]
    decide
  unfold Response.document
  rw [Value.depth, depthFields_append, depthFields_append, depthFields_append]
  have hleft : depthFields (unlessEmpty r.columns.isEmpty "columns"
      (.array (r.columns.map .string))) ≤ maxNestingDepth - 1 := depthFields_unlessEmpty hcolumns
  have hright : depthFields (unlessEmpty r.rows.isEmpty "rows" (.array (r.rows.map .array))) ≤
      maxNestingDepth - 1 := depthFields_unlessEmpty h.depth_rows
  have hfirst : depthFields [("command", .string r.command)] = 0 := rfl
  have hlast : depthFields [("rows_affected", .number (toString r.rowsAffected)),
      ("duration_ms", .number (toString r.durationMS))] = 0 := rfl
  rw [hfirst, hlast]
  have hmax := max_le (max_le (max_le (Nat.zero_le _) hleft) hright) (Nat.zero_le _)
  exact (Nat.add_le_add_left hmax 1).trans (by decide)

/-- The body of a response is read as its document. -/
theorem unmarshal_response (h : r.Stable j) :
    unmarshal (responseBody r) = some r.document := by
  obtain ⟨texts, htexts⟩ := marshalElems_of_valid _ h.valid_rows
  obtain ⟨text, htext⟩ := marshal_of_valid _ h.valid
  unfold responseBody
  rw [← marshal_response htexts, htext, Option.getD_some]
  exact unmarshal_text h.valid htext h.depth

theorem intField_toString {i : Int} (h : -2 ^ 63 ≤ i ∧ i < 2 ^ 63) :
    intField (some (.number (toString i))) = some i := by
  rw [intField, integerOf_toString, Option.filter_some, if_pos (decide_eq_true h)]

/-- The client reads the document into the same response, up to empty lists. -/
theorem decode_response (h : r.Stable j) : j.decodeSQLResult r.document = some r.received := by
  have hcolumns : (r.columns.map Value.string).mapM (fun v => stringField (some v)) =
      some r.columns := by
    refine mapM_written ?_
    exact fun x => rfl
  have hrows : (r.rows.map Value.array).mapM (fun v => sliceField j.decode (some v)) =
      some (r.rows.map some) := by
    rw [List.mapM_map]
    refine mapM_some ?_
    intro row hrow
    have hrow : row.mapM j.decode = some row :=
      (mapM_some (g := id) fun v hv => (h.rows row hrow v hv).1).trans
        (congrArg some (List.map_id _))
    -- A row is a slice of its own, and never nil.
    change (row.mapM j.decode).map some = some (some row)
    rw [hrow, Option.map_some]
  unfold Response.document
  rw [GoJson.decodeSQLResult]
  simp only [field_append, field_cons, field_nil, field_unlessEmpty, String.reduceEq, if_false,
    if_true, Option.none_or, Option.or_none, intField_toString h.rowsAffected,
    intField_toString h.durationMS, sliceField_unlessEmpty hcolumns, sliceField_unlessEmpty hrows]
  rfl

end Stable

/-! ### Problems -/

/-- The body of a problem is read as its document. -/
theorem unmarshal_problem (p : Problem) :
    unmarshal (problemReply p).body = some p.document := by
  have hdepth : p.document.depth ≤ maxNestingDepth := by
    unfold Problem.document
    rw [Value.depth, depthFields_append, depthFields_append]
    have hdetail : depthFields (unlessEmpty (decide (p.detail = "")) "detail" (.string p.detail)) ≤
        0 := depthFields_unlessEmpty (Nat.le_refl 0)
    have hstate : depthFields (unlessEmpty (decide (p.sqlState = "")) "sqlstate"
        (.string p.sqlState)) ≤ 0 := depthFields_unlessEmpty (Nat.le_refl 0)
    have hhead : depthFields [("title", .string p.title), ("status", .number (toString p.status))] =
        0 := rfl
    rw [Nat.le_zero.mp hdetail, Nat.le_zero.mp hstate, hhead]
    decide
  exact unmarshal_marshal "\n" (valid_problem p) (marshal_problem p) hdepth rfl

/-- The error of the client for a problem that came through whole. -/
theorem gatewayError_problem (p : Problem) (htitle : p.title ≠ "") (hdetail : p.detail ≠ "")
    (status : Int) :
    gatewayError status (problemReply p).body = p.title ++ ": " ++ p.detail := by
  have hfields : ∃ fields, p.document = .object fields ∧
      field "title" fields = some (.string p.title) ∧
      field "detail" fields = some (.string p.detail) := by
    refine ⟨_, rfl, ?_, ?_⟩
    · simp [field_append, field_cons, field_unlessEmpty]
    · simp [field_append, field_cons, field_unlessEmpty, hdetail]
  obtain ⟨fields, hdocument, htitle', hdetail'⟩ := hfields
  have hread : problemFields (problemReply p).body = fields := by
    unfold problemFields
    rw [unmarshal_problem, hdocument]
  have htext : ∀ name s, field name fields = some (.string s) →
      gatewayField name (problemReply p).body = s := by
    intro name s h
    unfold gatewayField
    rw [hread, h, stringArg]
  unfold gatewayError
  rw [htext "title" p.title htitle', htext "detail" p.detail hdetail', if_neg htitle,
    if_pos hdetail]

/-! ### Results of procedures -/

/-- A result the client can read: its numbers are in range, and it is not
    nested too deep. -/
structure CallResult.Readable (j : GoJson) (r : CallResult) : Prop where
  result : ∀ v, r.result = some v → (j.decode v).isSome ∧ v.depth + 1 ≤ maxNestingDepth
  durationMS : -2 ^ 63 ≤ r.durationMS ∧ r.durationMS < 2 ^ 63

section Readable

variable {j : GoJson} {r : CallResult}

theorem CallResult.Readable.getD (h : r.Readable j) :
    ∃ w, j.decode (r.result.getD .null) = some w ∧
      (r.result.getD .null).depth + 1 ≤ maxNestingDepth := by
  cases hresult : r.result with
  | none => exact ⟨.null, rfl, by decide⟩
  | some v =>
    obtain ⟨w, hw⟩ := Option.isSome_iff_exists.mp (h.result v hresult).1
    exact ⟨w, hw, (h.result v hresult).2⟩

/-- The client reads the document into some map, which has a JSON form. -/
theorem decode_call (h : r.Readable j) :
    ∃ fields, j.decodeMap r.document = some (some fields) ∧ validFields fields = true := by
  obtain ⟨w, hw, -⟩ := h.getD
  obtain ⟨duration, hduration⟩ := Option.isSome_iff_exists.mp
    (j.int64 r.durationMS h.durationMS.1 h.durationMS.2)
  obtain ⟨zero, hzero⟩ := Option.isSome_iff_exists.mp (j.int64 0 (by decide) (by decide))
  -- The status of a replay is written as well, as zero.
  have hzero : j.float "0" = some zero := hzero
  have hfields : ∃ fields, j.decodeFields [("procedure", .string r.procedure),
      ("result", r.result.getD .null), ("duration_ms", .number (toString r.durationMS)),
      ("Replay", .bool false), ("CachedStatus", .number "0"), ("CachedBody", .null)] =
      some fields := by
    refine ⟨[("procedure", .string r.procedure), ("result", w), ("duration_ms", .number duration),
      ("Replay", .bool false), ("CachedStatus", .number zero), ("CachedBody", .null)], ?_⟩
    simp only [GoJson.decodeFields, GoJson.decode, hw, hduration, hzero]
    rfl
  obtain ⟨fields, hfields⟩ := hfields
  refine ⟨mapOf fields, ?_, validFields_mapOf (decodeFields_valid j _ fields hfields)⟩
  unfold CallResult.document
  rw [GoJson.decodeMap, hfields, Option.map_some]

/-- The body of a result is read as its document. -/
theorem unmarshal_call (h : r.Readable j) :
    unmarshal (utf8 ((r.marshal.map (· ++ "\n")).getD "")) = some r.document := by
  obtain ⟨w, hw, hdeep⟩ := h.getD
  have hvalid := valid_call r (valid_of_decode j _ w hw)
  have hdepth : r.document.depth ≤ maxNestingDepth := by
    change 1 + max 0 (max (r.result.getD .null).depth 0) ≤ maxNestingDepth
    rw [Nat.max_zero, Nat.zero_max]
    omega
  obtain ⟨text, htext⟩ := marshal_of_valid _ hvalid
  rw [← marshal_call, htext, Option.map_some, Option.getD_some]
  exact unmarshal_marshal "\n" hvalid htext hdepth rfl

end Readable

/-! ### Requests -/

section Requests

variable (m : Mcp) (call : ToolCall m.json)

theorem params_decoded {vs : List Value} (h : call.params = some vs) :
    m.json.decodeElems vs = some vs ∧ depthElems vs + 4 ≤ maxNestingDepth := by
  have harg : call.args "params" = some (.array vs) := by
    unfold ToolCall.params listArg at h
    split at h
    · rename_i ws hws
      rw [hws, Option.some.inj h]
    · cases h
  have hdecoded := call.decoded _ _ harg
  have hnested := call.nested _ _ harg
  rw [GoJson.decode, Option.map_eq_some_iff] at hdecoded
  obtain ⟨ws, hws, heq⟩ := hdecoded
  rw [Value.array.injEq] at heq
  rw [Value.depth] at hnested
  exact ⟨heq ▸ hws, by omega⟩

theorem rpcArgs_decoded {fields : List (String × Value)} (h : call.rpcArgs = some fields) :
    m.json.decodeMap (.object fields) = some (some fields) ∧
      (Value.object fields).valid = true ∧
      (Value.object fields).depth + 3 ≤ maxNestingDepth := by
  have harg : call.args "args" = some (.object fields) := by
    unfold ToolCall.rpcArgs mapArg at h
    split at h
    · rename_i ws hws
      rw [hws, Option.some.inj h]
    · cases h
  have hdecoded := call.decoded _ _ harg
  refine ⟨?_, valid_of_decode _ _ _ hdecoded, call.nested _ _ harg⟩
  rw [GoJson.decode, Option.map_eq_some_iff] at hdecoded
  obtain ⟨ws, hws, heq⟩ := hdecoded
  rw [Value.object.injEq] at heq
  rw [GoJson.decodeMap, hws, Option.map_some, heq]

/-- A request has a text, and the gateway reads it back. -/
theorem decodeBody_marshal {α : Type} {decode : Value → Option α} {v : Value} {req : α}
    (hvalid : v.valid = true) (hdepth : v.depth ≤ maxNestingDepth) (hreq : decode v = some req) :
    ∃ text, v.marshal = some text ∧ m.decodeBody decode (utf8 text) = .ok req := by
  obtain ⟨text, htext⟩ := marshal_of_valid v hvalid
  have hread := unmarshal_text hvalid htext hdepth
  refine ⟨text, htext, ?_⟩
  unfold Mcp.decodeBody
  rw [hread, Option.bind_some, hreq]

theorem decodeBody_sql :
    ∃ text, (sqlBody call.sql call.params).marshal = some text ∧
      m.decodeBody m.json.decodeSqlRequest (utf8 text) =
        .ok { sql := call.sql, params := call.params.getD [] } := by
  cases hparams : call.params with
  | none => exact decodeBody_marshal m rfl (show (1 : Nat) ≤ maxNestingDepth by decide) rfl
  | some vs =>
    obtain ⟨hdecoded, hdepth⟩ := params_decoded m call hparams
    refine decodeBody_marshal m ?_ ?_ ?_
    · change (validElems vs && (true && true)) = true
      rw [validElems_of_decode m.json vs vs hdecoded]
      rfl
    · change 1 + max (1 + depthElems vs) (max 0 0) ≤ maxNestingDepth
      rw [Nat.max_zero, Nat.max_zero]
      omega
    · rw [decodeElems_eq_mapM] at hdecoded
      simp only [sqlBody, GoJson.decodeSqlRequest, field_cons, field_nil, String.reduceEq,
        if_false, if_true, Option.none_or, Option.some_or, sliceField, hdecoded]
      rfl

theorem decodeBody_rpc :
    ∃ text, (rpcBody call.procedure call.rpcArgs).marshal = some text ∧
      m.decodeBody m.json.decodeRpcRequest (utf8 text) =
        .ok { procedure := call.procedure, args := call.rpcArgs.getD [] } := by
  cases hargs : call.rpcArgs with
  | none => exact decodeBody_marshal m rfl (show (1 : Nat) ≤ maxNestingDepth by decide) rfl
  | some fields =>
    obtain ⟨hdecoded, hvalid, hdepth⟩ := rpcArgs_decoded m call hargs
    refine decodeBody_marshal m ?_ ?_ ?_
    · change ((Value.object fields).valid && (true && true)) = true
      rw [hvalid]
      rfl
    · change 1 + max (Value.object fields).depth (max 0 0) ≤ maxNestingDepth
      rw [Nat.max_zero, Nat.max_zero]
      omega
    · simp only [rpcBody, GoJson.decodeRpcRequest, field_cons, field_nil, String.reduceEq,
        if_false, if_true, Option.none_or, Option.some_or, Option.getD_some, hdecoded]
      rfl

end Requests

end CoopDB
