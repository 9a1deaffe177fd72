import CoopDB.Lib.ShortestDecimal
import CoopDB.Theory.Audit.Coverage
import CoopDB.Theory.Idempotency.RpcReplay
import CoopDB.Theory.Json.Paths
import CoopDB.Theory.Statement.ReplyDocument

/-!
# Integers on Their Way to Postgres

A number of a request body is decoded into an `any`, that is, into a float64.
pgx sends the exact value of a float64. So a parameter arrives unchanged exactly
if the integer is a number of the format: one with 53 binary digits or fewer,
apart from zeros at its end.

The arguments of a procedure are encoded again, and the encoder writes as few
decimal digits as the float64 can be told from its neighbours by. So there the
integer arrives unchanged exactly if no integer that is read as the same float64
ends in more zeros, or ends in as many and is nearer to the float64. That is
another condition. `2 ^ 60` is a float64, and in the arguments it arrives as
`1152921504606847000`, which is none and arrives there as itself.

## Main definitions

* `nearestFloat64`, `printedFloat64`: Reading and writing a float64.
* `Json.GoJson.Float64`: The library reads and writes so.
* `boundInteger`, `argumentInteger`: The number at a place of what Postgres gets.

## Theorems

* `integer_arrives_iff`: The two conditions, and up to `2 ^ 53` both are met.
* `identifier_changed`: The next integer is changed on both ways.
-/

namespace CoopDB

open Json

/-- The float64 that is nearest to an integer. -/
def nearestFloat64 (i : Int) : Int :=
  BinaryFloat.signed (BinaryFloat.round 53) i

/-- The integer that is written for a float64 without a fraction, as
    `strconv.AppendFloat` does with the format `f` and the precision -1. The
    encoder uses that format below `10 ^ 21`. -/
def printedFloat64 (f : Int) : Int :=
  BinaryFloat.signed (BinaryFloat.shortest 53) f

/-- An integer literal in the range of an int64 is decoded into an `any` as the
    nearest float64, and that is encoded with as few digits as it takes. -/
def Json.GoJson.Float64 (j : GoJson) : Prop :=
  ∀ lit out i, j.float lit = some out → integerOf lit.toList = some i → -2 ^ 63 ≤ i → i < 2 ^ 63 →
    integerOf out.toList = some (printedFloat64 (nearestFloat64 i))

/-- The integer a bound parameter holds at a place. It is the exact value of the
    float64 there, which the value stands for with the literal that is written
    for it. -/
def boundInteger (params : List Value) (path : List Step) : Option Int :=
  match (Value.array params).locate path with
  | some (.number lit) => (integerOf lit.toList).map nearestFloat64
  | _ => none

/-- The integer that Postgres reads at a place of the arguments. -/
def argumentInteger (text : String) (path : List Step) : Option Int :=
  match (readDocument text).bind fun v => v.locate path with
  | some (.number lit) => integerOf lit.toList
  | _ => none

/-! ### Reading and writing a float64 -/

/-- What is written for a float64 is read as the float64. -/
theorem nearestFloat64_printed (i : Int) :
    nearestFloat64 (printedFloat64 (nearestFloat64 i)) = nearestFloat64 i := by
  unfold nearestFloat64 printedFloat64
  have hround := BinaryFloat.round_zero 53
  have hshortest := BinaryFloat.shortest_zero 53
  rw [BinaryFloat.signed_signed hshortest hround,
    BinaryFloat.signed_signed hround (by rw [hround, hshortest])]
  refine congrArg (fun g => BinaryFloat.signed g i) (funext fun n => ?_)
  exact BinaryFloat.round_shortest 53 (by omega) (BinaryFloat.round_round 53 (by omega) n)

theorem nearestFloat64_eq_self_iff (i : Int) :
    nearestFloat64 i = i ↔ BinaryFloat.Representable 53 i.natAbs := by
  unfold nearestFloat64
  rw [BinaryFloat.signed_eq_self_iff (BinaryFloat.round_zero 53),
    BinaryFloat.round_eq_self_iff 53 (by omega)]

theorem printedFloat64_eq_self_iff (i : Int) :
    printedFloat64 (nearestFloat64 i) = i ↔
      i = 0 ∨ BinaryFloat.IsShortest 53 (BinaryFloat.round 53 i.natAbs) i.natAbs := by
  unfold nearestFloat64 printedFloat64
  have hround := BinaryFloat.round_zero 53
  have hshortest := BinaryFloat.shortest_zero 53
  rw [BinaryFloat.signed_signed hshortest hround,
    BinaryFloat.signed_eq_self_iff (by rw [hround, hshortest])]
  -- Zero ends in any number of zeros, and is written as it is.
  by_cases hi : i = 0
  · subst hi
    rw [Int.natAbs_zero, hround, hshortest]
    exact iff_of_true rfl (.inl rfl)
  · rw [or_iff_right hi]
    exact BinaryFloat.shortest_eq_iff 53 (by omega) (BinaryFloat.round_round 53 (by omega) _)
      (BinaryFloat.round_ne_zero 53 (by omega) (Int.natAbs_ne_zero.mpr hi)) _

/-! ### What the handlers hand over -/

theorem handedSQL_decoded {a : Api} {c : Conn} {r : SqlRequest} {params : List Value}
    (h : handedSQL a c r = some params) : ∃ req, r.decoded = .ok req ∧ req.params = params := by
  unfold handedSQL at h
  split at h
  case h_1 => cases h
  case h_2 req hdecoded =>
    split at h
    case h_1 => cases h
    case h_2 res hval =>
      simp only [Option.ite_none_right_eq_some, Option.some.injEq] at h
      exact ⟨req, hdecoded, h.2⟩

theorem handedRPC_decoded {a : Api} {c : Conn} {ws : WorkspaceContext} {r : RpcRequest}
    {text : String} (h : handedRPC a c ws r = some text) :
    ∃ req, r.decoded = .ok req ∧ (Value.object req.args).marshal = some text := by
  unfold handedRPC at h
  split at h
  case h_1 req hread hdecoded =>
    split at h
    case h_1 => cases h
    case h_2 ran hran =>
      rw [Option.ite_none_right_eq_some] at h
      exact ⟨req, hdecoded, h.2⟩
  case h_2 => cases h

theorem decodeBody_ok {α : Type} {j : GoJson} {decode : Value → Option α} {body : Bytes}
    {req : α} {doc : Value} (h : j.decodeBody decode body = .ok req)
    (hdoc : unmarshal body = some doc) : decode doc = some req := by
  unfold GoJson.decodeBody at h
  rw [hdoc, Option.bind_some] at h
  split at h
  case h_1 => cases h
  case h_2 req' hreq =>
    rw [Except.ok.injEq] at h
    rw [hreq, h]

/-- What an `any` holds for an integer. -/
theorem decode_integer {j : GoJson} (hj : j.Float64) {lit : String} {i : Int} {w : Value}
    (hi : integerOf lit.toList = some i) (hlow : -2 ^ 63 ≤ i) (hhigh : i < 2 ^ 63)
    (h : j.decode (.number lit) = some w) :
    ∃ out, w = .number out ∧
      integerOf out.toList = some (printedFloat64 (nearestFloat64 i)) := by
  rw [GoJson.decode, Option.map_eq_some_iff] at h
  rcases h with ⟨out, hout, rfl⟩
  exact ⟨out, rfl, hj lit out i hout hi hlow hhigh⟩

/-- The parameter at the place of an integer is the nearest float64. -/
theorem boundInteger_handed {a : Api} {j : GoJson} (hj : j.Float64) {c : Conn} {r : SqlRequest}
    {body : Bytes} {params : List Value} {doc : Value} {path : List Step} {lit : String} {i : Int}
    (hhanded : handedSQL a c (r.withBody j body) = some params)
    (hdoc : unmarshal body = some doc) (hlit : (paramsOf doc).locate path = some (.number lit))
    (hi : integerOf lit.toList = some i) (hlow : -2 ^ 63 ≤ i) (hhigh : i < 2 ^ 63) :
    boundInteger params path = some (nearestFloat64 i) := by
  rcases handedSQL_decoded hhanded with ⟨req, hdecoded, rfl⟩
  have hread := decodeBody_ok hdecoded hdoc
  have hparams : j.decode (paramsOf doc) = some (.array req.params) := by
    rcases unmarshalSQL_params j hread with hnull | hparams
    · -- There is no number in parameters that are missing.
      rw [hnull] at hlit
      cases path with
      | nil => cases hlit
      | cons => exact absurd hlit (by simp [Value.locate])
    · exact hparams
  rcases decode_locate j hparams hlit with ⟨w, hw, hdecode⟩
  rcases decode_integer hj hi hlow hhigh hdecode with ⟨out, rfl, hout⟩
  simp [boundInteger, hw, hout, nearestFloat64_printed]

/-- The argument at the place of an integer is what is written for the nearest
    float64. -/
theorem argumentInteger_handed {a : Api} {j : GoJson} (hj : j.Float64) {c : Conn}
    {ws : WorkspaceContext} {r : RpcRequest} {body : Bytes} {text : String} {doc : Value}
    {path : List Step} {lit : String} {i : Int}
    (hhanded : handedRPC a c ws (r.withBody j body) = some text)
    (hdoc : unmarshal body = some doc) (hlit : (argsOf doc).locate path = some (.number lit))
    (hi : integerOf lit.toList = some i) (hlow : -2 ^ 63 ≤ i) (hhigh : i < 2 ^ 63) :
    argumentInteger text path = some (printedFloat64 (nearestFloat64 i)) := by
  rcases handedRPC_decoded hhanded with ⟨req, hdecoded, htext⟩
  have hargs := unmarshalRPC_args j (decodeBody_ok hdecoded hdoc)
  rcases decode_locate j hargs hlit with ⟨w, hw, hdecode⟩
  rcases decode_integer hj hi hlow hhigh hdecode with ⟨out, rfl, hout⟩
  -- The text is read as the map it was written from.
  have hdocument := readDocument_text (decode_valid j _ _ hargs) htext
  simp [argumentInteger, hdocument, hw, hout]

/-- An integer in the parameters is bound unchanged exactly if it is a float64.
    An integer in the arguments of a procedure arrives unchanged exactly if it
    is the shortest decimal of the float64 it is read as. Up to `2 ^ 53` both
    are the case. -/
theorem integer_arrives_iff (a : Api) (j : GoJson) (hj : j.Float64) (c : Conn) :
    (∀ (r : SqlRequest) (body : Bytes) (params : List Value) (doc : Value) (path : List Step)
        (lit : String) (i : Int), handedSQL a c (r.withBody j body) = some params →
      unmarshal body = some doc → (paramsOf doc).locate path = some (.number lit) →
      integerOf lit.toList = some i → -2 ^ 63 ≤ i → i < 2 ^ 63 →
      (boundInteger params path = some i ↔ BinaryFloat.Representable 53 i.natAbs)) ∧
    (∀ (ws : WorkspaceContext) (r : RpcRequest) (body : Bytes) (text : String) (doc : Value)
        (path : List Step) (lit : String) (i : Int),
      handedRPC a c ws (r.withBody j body) = some text →
      unmarshal body = some doc → (argsOf doc).locate path = some (.number lit) →
      integerOf lit.toList = some i → -2 ^ 63 ≤ i → i < 2 ^ 63 →
      (argumentInteger text path = some i ↔
        i = 0 ∨ BinaryFloat.IsShortest 53 (BinaryFloat.round 53 i.natAbs) i.natAbs)) ∧
    ∀ i : Int, i.natAbs ≤ 2 ^ 53 → BinaryFloat.Representable 53 i.natAbs ∧
      (i = 0 ∨ BinaryFloat.IsShortest 53 (BinaryFloat.round 53 i.natAbs) i.natAbs) := by
  refine ⟨?_, ?_, ?_⟩
  · intro r body params doc path lit i hhanded hdoc hlit hi hlow hhigh
    rw [boundInteger_handed hj hhanded hdoc hlit hi hlow hhigh, Option.some.injEq,
      nearestFloat64_eq_self_iff]
  · intro ws r body text doc path lit i hhanded hdoc hlit hi hlow hhigh
    rw [argumentInteger_handed hj hhanded hdoc hlit hi hlow hhigh, Option.some.injEq,
      printedFloat64_eq_self_iff]
  · intro i hi
    have hrep := BinaryFloat.representable_of_le_pow 53 hi
    refine ⟨hrep, ?_⟩
    rw [← printedFloat64_eq_self_iff, (nearestFloat64_eq_self_iff i).mpr hrep]
    unfold printedFloat64
    rw [BinaryFloat.signed_eq_self_iff (BinaryFloat.shortest_zero 53)]
    exact BinaryFloat.shortest_of_le_pow 53 (by omega) hi

/-- A library that reads and writes integers so, and leaves other numbers
    alone. -/
def float64Json : GoJson :=
  { float := fun lit =>
      if isNumber lit.toList then
        some (((integerOf lit.toList).map fun i =>
          toString (printedFloat64 (nearestFloat64 i))).getD lit)
      else none
    number := by
      intro lit out h
      rw [Option.ite_none_right_eq_some, Option.some.injEq] at h
      refine ⟨h.1, ?_⟩
      rw [← h.2]
      cases integerOf lit.toList with
      | none => exact h.1
      | some => exact isNumber_toString _
    int64 := by
      intro i _ _
      rw [if_pos (isNumber_toString i)]
      rfl
    marshalError := fun _ => "json: unsupported value"
    unmarshalError := fun _ => "invalid character" }

theorem float64Json_float64 : float64Json.Float64 := by
  intro lit out i hout hi _ _
  simp only [float64Json, Option.ite_none_right_eq_some, Option.some.injEq, hi, Option.map_some,
    Option.getD_some] at hout
  rw [← hout.2, integerOf_toString]

/-- A server with one procedure, for which every text is `SELECT $1`. -/
def selectApi : Api :=
  { bareApi with
    q := { parse := fun _ => .ok [some .selectStmt], scan := fun _ => .ok [(0, 6), (7, 9)] }
    registry := upsertRegistry }

/-- The body of a statement with a number in an array that is its parameter. -/
def selectBody (lit : String) : Value :=
  .object [("sql", .string "SELECT $1"), ("params", .array [.array [.number lit]])]

/-- The body of a call with a number in its arguments. -/
def upsertArgsBody (lit : String) : Value :=
  .object [("procedure", .string "upsert_document"), ("args", .object [("id", .number lit)])]

theorem any_isStatement (before after : List Sent) (sql : String) (current : Settings) :
    ((before ++ [Sent.statement sql current]) ++ after).any Sent.isStatement = true := by
  rw [List.any_append, List.any_append, List.any_cons, Sent.isStatement, Bool.true_or, Bool.or_true,
    Bool.true_or]

/-- `Execute` comes to the statement once the tenant is set up. -/
theorem executeSent_statement (q : PgQuery) (cfg : ExecutorConfig) (c : Conn) (input : ExecuteInput)
    (db : DbScript) (hresult : input.result.isSome = true) (hbegin : db.begin = none)
    (hready : ∃ t, (setupSent input.workspaceID input.pgRole cfg.statementTimeout
      cfg.idleInTxTimeout db.setup (Tx.start c.session)).2 = .ok t) :
    (executeSent q cfg c input db).1.any Sent.isStatement = true := by
  rcases Option.isSome_iff_exists.mp hresult with ⟨res, hres⟩
  rcases hready with ⟨t, ht⟩
  simp only [executeSent, hres, hbegin, ht]
  cases runStatement cfg res db with
  | error => exact any_isStatement _ _ _ _
  | ok =>
    cases db.commit with
    | some | none => exact any_isStatement _ _ _ _

/-- `run` does too, if the arguments have a text. -/
theorem run_statement (c : Conn) (body : String) (input : CallInput) (db : RunScript)
    (hbegin : db.begin = none)
    (hready : ∃ t, (setupSent input.workspaceID input.pgRole input.statementTimeout
      input.idleInTxTimeout db.setup (Tx.start c.session)).2 = .ok t)
    (hargs : (Value.object input.args).marshal.isSome = true) :
    (Dispatcher.run c body input db).1.any Sent.isStatement = true := by
  rcases Option.isSome_iff_exists.mp hargs with ⟨text, htext⟩
  rcases hready with ⟨t, ht⟩
  simp only [Dispatcher.run, hbegin, ht, htext]
  cases db.row with
  | error => exact any_isStatement _ _ _ _
  | ok =>
    cases db.commit with
    | some | none => exact any_isStatement _ _ _ _

/-- The tenant is set up on the used connection. -/
theorem usedConn_ready :
    ∃ t, (setupSent "w" "dbuser" 5000000000 5000000000 ⟨none, none, none, none, none⟩
      (Tx.start usedConn.session)).2 = .ok t :=
  ⟨_, rfl⟩

/-- The parameter of the statement is what its number is read as. -/
theorem handedSQL_select {lit out text : String} (hout : float64Json.float lit = some out)
    (htext : (selectBody lit).marshal = some text) :
    unmarshal (utf8 text) = some (selectBody lit) ∧
      handedSQL selectApi usedConn ((selectRow []).withBody float64Json (utf8 text)) =
        some [.array [.number out]] := by
  have hlit := (float64Json.number lit out hout).1
  have hvalid : (selectBody lit).valid = true := by
    simp [selectBody, Value.valid, validFields, validElems, hlit]
  have hread := unmarshal_text hvalid htext (by decide : 3 ≤ maxNestingDepth)
  have hdecode : float64Json.unmarshalSQL (selectBody lit) =
      some { sql := "SELECT $1", params := [.array [.number out]] } := by
    rw [selectBody, GoJson.unmarshalSQL, fieldsOf_cons, if_pos (by decide), fieldsOf_cons,
      if_neg (by decide), fieldsOf_cons, if_neg (by decide), fieldsOf_cons, if_pos (by decide)]
    simp [fieldsOf, setString, sliceField, GoJson.decode, GoJson.decodeElems, hout]
  have hdecoded : ((selectRow []).withBody float64Json (utf8 text)).decoded =
      .ok { sql := "SELECT $1", params := [.array [.number out]] } := by
    rw [SqlRequest.withBody, GoJson.decodeBody, hread, Option.bind_some, hdecode]
  have hval : validate selectApi.q selectApi.validator "SELECT $1" [.array [.number out]] =
      .ok ⟨"SELECT", true, false, 1⟩ := rfl
  have hexec : (handleSQLExecute selectApi.q selectApi.validator selectApi.executor
      selectApi.maxResponseBodyBytes usedConn
      ((selectRow []).withBody float64Json (utf8 text))).executed.isSome = true := by
    unfold handleSQLExecute
    simp only [hdecoded, hval]
    rfl
  refine ⟨hread, ?_⟩
  unfold handedSQL
  simp only [hdecoded, hval]
  exact if_pos ⟨hexec, executeSent_statement _ _ _ _ _ rfl rfl usedConn_ready⟩

/-- The argument of the call is what its number is written as. -/
theorem handedRPC_upsert {lit out text : String} (hout : float64Json.float lit = some out)
    (htext : (upsertArgsBody lit).marshal = some text) :
    unmarshal (utf8 text) = some (upsertArgsBody lit) ∧
      handedRPC selectApi usedConn upsertCaller
          ((upsertCall (.ok none) proceed).withBody float64Json (utf8 text)) =
        (Value.object [("id", .number out)]).marshal := by
  -- Read the body, decode it, and run the procedure on what was decoded.
  have hlit := (float64Json.number lit out hout).1
  have hvalid : (upsertArgsBody lit).valid = true := by
    simp [upsertArgsBody, Value.valid, validFields, hlit]
  have hread := unmarshal_text hvalid htext (by decide : 2 ≤ maxNestingDepth)
  have hdecode : float64Json.unmarshalRPC (upsertArgsBody lit) =
      some { procedure := "upsert_document", args := [("id", .number out)] } := by
    rw [upsertArgsBody, GoJson.unmarshalRPC, fieldsOf_cons, if_pos (by decide), fieldsOf_cons,
      if_neg (by decide), fieldsOf_cons, if_neg (by decide), fieldsOf_cons, if_pos (by decide)]
    simp only [fieldsOf, List.filter_nil, List.map_nil, List.foldlM_cons, List.foldlM_nil,
      setString, GoJson.addToMap, GoJson.decode, GoJson.decodeFields, hout, Option.map_some,
      Option.bind_eq_bind, Option.bind_some, Option.pure_def, Option.getD_some, Option.getD_none,
      List.foldl_cons, List.foldl_nil, insertField]
  have hdecoded : ((upsertCall (.ok none) proceed).withBody float64Json (utf8 text)).decoded =
      .ok { procedure := "upsert_document", args := [("id", .number out)] } := by
    rw [RpcRequest.withBody, GoJson.decodeBody, hread, Option.bind_some, hdecode]
  have hran : ∃ input db,
      (Dispatcher.call selectApi.registry usedConn
        (((upsertCall (.ok none) proceed).withBody float64Json (utf8 text)).call upsertCaller
          { procedure := "upsert_document", args := [("id", .number out)] }
          selectApi.statementTimeout selectApi.idleInTxTimeout)).ran =
        some (Dispatcher.run usedConn upsertDocument.body input db) ∧
      (Dispatcher.run usedConn upsertDocument.body input db).1.any Sent.isStatement = true :=
    ⟨_, _, rfl, run_statement _ _ _ _ rfl usedConn_ready rfl⟩
  rcases hran with ⟨input, db, hran, hsent⟩
  refine ⟨hread, ?_⟩
  have hbody : ((upsertCall (.ok none) proceed).withBody float64Json (utf8 text)).readBody =
      .ok () := rfl
  unfold handedRPC
  simp only [hbody, hdecoded, hran, hsent, if_true]

/-- `2 ^ 53` arrives on both ways. -/
theorem exact_integer_arrives :
    ∃ sqlText rpcText text : String, ∃ params,
      (selectBody "9007199254740992").marshal = some sqlText ∧
      handedSQL selectApi usedConn ((selectRow []).withBody float64Json (utf8 sqlText)) =
        some params ∧
      boundInteger params [.index 0, .index 0] = some 9007199254740992 ∧
      (upsertArgsBody "9007199254740992").marshal = some rpcText ∧
      handedRPC selectApi usedConn upsertCaller
        ((upsertCall (.ok none) proceed).withBody float64Json (utf8 rpcText)) = some text ∧
      argumentInteger text [.field "id"] = some 9007199254740992 := by
  have hout : float64Json.float "9007199254740992" = some "9007199254740992" := by decide +kernel
  obtain ⟨hsql, hrpc, hsmall⟩ :=
    integer_arrives_iff selectApi float64Json float64Json_float64 usedConn
  obtain ⟨hexact, hshortest⟩ := hsmall 9007199254740992 (by decide)
  have hparams := handedSQL_select hout rfl
  have hargs := handedRPC_upsert hout rfl
  refine ⟨_, _, _, _, rfl, hparams.2, ?_, rfl, hargs.2, ?_⟩
  · exact (hsql _ _ _ _ _ _ _ hparams.2 hparams.1 rfl (by decide +kernel) (by decide)
      (by decide)).mpr hexact
  · exact (hrpc _ _ _ _ _ _ _ _ hargs.2 hargs.1 rfl (by decide +kernel) (by decide)
      (by decide)).mpr hshortest

/-- The next integer is changed on both ways, and a larger one that is a float64
    still is in the arguments. -/
theorem identifier_changed :
    (∃ text params, unmarshal (utf8 text) = some (selectBody "9007199254740993") ∧
      handedSQL selectApi usedConn ((selectRow []).withBody float64Json (utf8 text)) =
        some params ∧
      (paramsOf (selectBody "9007199254740993")).locate [.index 0, .index 0] =
        some (.number "9007199254740993") ∧
      boundInteger params [.index 0, .index 0] = some 9007199254740992) ∧
    (∃ text args, unmarshal (utf8 text) = some (upsertArgsBody "1152921504606846976") ∧
      handedRPC selectApi usedConn upsertCaller
        ((upsertCall (.ok none) proceed).withBody float64Json (utf8 text)) = some args ∧
      (argsOf (upsertArgsBody "1152921504606846976")).locate [.field "id"] =
        some (.number "1152921504606846976") ∧
      argumentInteger args [.field "id"] = some 1152921504606847000) := by
  have hout : float64Json.float "9007199254740993" = some "9007199254740992" := by decide +kernel
  have hout' : float64Json.float "1152921504606846976" = some "1152921504606847000" := by
    decide +kernel
  have hparams := handedSQL_select hout rfl
  have hargs := handedRPC_upsert hout' rfl
  refine ⟨⟨_, _, hparams.1, hparams.2, rfl, ?_⟩, ⟨_, _, hargs.1, hargs.2, rfl, ?_⟩⟩
  · decide +kernel
  · decide +kernel

end CoopDB
