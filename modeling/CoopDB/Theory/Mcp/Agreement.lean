import CoopDB.Theory.Audit.Agreement
import CoopDB.Theory.ErrorReply
import CoopDB.Theory.Mcp.Documents

/-!
# Embedded and Standalone

What `sql_execute` and `rpc_call` return through `directDoer` against what they
return through `Client` and the REST handlers, in the same surroundings.

The two are not the same in general. `directDoer` makes no use of the idempotency
key, and says so. So the comparison is of calls that are not answered from the
idempotency table. A statement that is refused gives the same text on both
sides, and so does one that succeeds, as long as its rows come through a JSON
document as they were.

## Main definitions

* `PgQuery.Explains`: The parser gives its errors a text.
* `Proceeds`: The idempotency layer lets a call through.
* `Carriable`, `SqlComparable`, `RpcComparable`: The calls that are compared.

## Theorems

* `client_refused`, `client_failed`, `client_succeeded`, `client_replayed`: What the
  client gets for a statement.
* `client_call_failed`, `client_call_succeeded`: What it gets for a procedure.
* `embedded_agrees_with_standalone`: Both sides flag an error or neither does, and the
  texts agree but for a statement that fails in the database and a procedure.
* `retried_insert_differs`: A retried call, through either.
-/

namespace CoopDB

open Json

/-- The errors of the parser and the scanner have a text. -/
structure PgQuery.Explains (q : PgQuery) : Prop where
  parse : ∀ sql e, q.parse sql = .error e → e ≠ ""
  scan : ∀ sql e, q.scan sql = .error e → e ≠ ""

theorem countPlaceholders_error {q : PgQuery} {sql e : String}
    (h : countPlaceholders q sql = .error e) : q.scan sql = .error e := by
  unfold countPlaceholders at h
  split at h
  · rename_i hscan
    rw [hscan, Except.error.inj h]
  · cases h

/-- A validation error has a code and a message. -/
theorem validate_explains {q : PgQuery} (hq : q.Explains) {cfg : ValidatorConfig} {sql : String}
    {params : List Value} {code message : String}
    (h : validate q cfg sql params = .error (.validation code message)) :
    code ≠ "" ∧ message ≠ "" := by
  unfold validate at h
  repeat' split at h
  all_goals
    simp only [Except.error.injEq, Failure.validation.injEq, reduceCtorEq] at h
  -- The two errors that are passed on come first, then those with a text of their own.
  case h_1 hparse => exact ⟨by rw [← h.1]; decide, h.2 ▸ hq.parse sql _ hparse⟩
  case h_1 hscan =>
    exact ⟨by rw [← h.1]; decide, h.2 ▸ hq.scan sql _ (countPlaceholders_error hscan)⟩
  all_goals
    obtain ⟨rfl, rfl⟩ := h
    simp

/-! ### What the client makes of a reply -/

section Replies

variable {α : Type} (j : GoJson) (zero : α) (decode : Value → Option α)

theorem doAndDecode_problem {p : Problem} (h : 400 ≤ p.status) :
    doAndDecode j zero decode (problemReply p) =
      .error (gatewayError p.status ((problemReply p).body.take maxResponseSize)) := by
  unfold doAndDecode
  exact if_pos h

theorem unmarshal_ne_nil {body : Bytes} {v : Value} (h : unmarshal body = some v) : body ≠ [] := by
  rintro rfl
  have hempty : unmarshal [] = none := unmarshal_utf8 ""
  rw [hempty] at h
  cases h

theorem doAndDecode_document {reply : HttpReply} {v : Value} {r : α} (hstatus : reply.status < 400)
    (hsize : reply.body.length ≤ maxResponseSize) (hread : unmarshal reply.body = some v)
    (hdecode : decode v = some r) : doAndDecode j zero decode reply = .ok r := by
  have hne : reply.body.isEmpty = false := List.isEmpty_eq_false_iff.mpr (unmarshal_ne_nil hread)
  unfold doAndDecode
  simp only [List.take_of_length_le hsize, hne, hread, Option.bind_some, hdecode]
  rw [if_neg (by omega), if_neg Bool.false_ne_true]

end Replies

/-! ### Statements -/

/-- The idempotency layer lets a call with the key through. -/
def Proceeds (w : Surroundings) (key : String) : Prop :=
  key = "" ∨ validHeaderValue key = true ∧ ∃ ir, w.begun = .ok ir ∧ ir.replay = false

theorem Proceeds.valid {w : Surroundings} {key : String} (h : Proceeds w key) :
    validHeaderValue key = true := by
  rcases h with rfl | ⟨hvalid, -⟩
  · rfl
  · exact hvalid

/-- The body of a request is within the limit for requests. -/
def Mcp.Accepts (m : Mcp) (body : Value) : Prop :=
  ∀ text, body.marshal = some text → ((utf8 text).length : Int) ≤ m.maxRequestBodyBytes

theorem Mcp.Accepts.read {m : Mcp} {body : Value} {text : String} (h : m.Accepts body)
    (htext : body.marshal = some text) : m.readBody (utf8 text) = .ok () := by
  have hlength := h text htext
  unfold Mcp.readBody
  exact if_neg (by omega)

section Sql

variable (m : Mcp) (w : Surroundings) (call : ToolCall m.json)

/-- What the validator says to the statement of a call. -/
def Mcp.validated : Except Failure Result :=
  validate m.api.q m.api.validator call.sql (call.params.getD [])

/-- What `Execute` returns for the statement of a call. -/
def Mcp.outcome (res : Result) : Except Failure Response :=
  m.executed w call.sql (call.params.getD []) res

theorem postSQL_eq (key : String) (body : Bytes) :
    m.postSQL w key body = (handleSQLExecute m.api.q m.api.validator m.api.executor
      m.api.maxResponseBodyBytes w.conn (m.sqlRequest w key body)).reply :=
  handleSQL_reply _ _ _ _ _ _ _ _

/-- The body was read and decoded into the statement of the call. -/
structure Received (body : Bytes) : Prop where
  read : m.readBody body = .ok ()
  decoded : m.decodeBody m.json.decodeSqlRequest body =
    .ok { sql := call.sql, params := call.params.getD [] }

variable {m call}

theorem postSQL_refused {body : Bytes} {key : String} {e : Failure} (h : Received m call body)
    (hval : m.validated call = .error e) :
    m.postSQL w key body = problemReply (mapError (some e)) := by
  unfold Mcp.validated at hval
  rw [postSQL_eq]
  simp only [handleSQLExecute, Mcp.sqlRequest, h.read, h.decoded, hval]

theorem postSQL_executed {body : Bytes} {res : Result} (h : Received m call body)
    (hval : m.validated call = .ok res) (hproceeds : Proceeds w call.idempotencyKey) :
    m.postSQL w call.idempotencyKey body =
      (finishSQL m.api.maxResponseBodyBytes (m.outcome w call res)).1 := by
  have hthrough : receivedHeader call.idempotencyKey = "" ∨
      ∃ ir, w.begun = .ok ir ∧ ir.replay = false := by
    rcases hproceeds with hnone | ⟨-, hbegun⟩
    · rw [hnone]
      exact .inl rfl
    · exact .inr hbegun
  have hforwarded : Forwarded m.api.q m.api.validator (m.sqlRequest w call.idempotencyKey body)
      { sql := call.sql, params := call.params.getD [] } res :=
    ⟨h.read, h.decoded, hval, hthrough⟩
  rw [postSQL_eq]
  exact (handleSQLExecute_of_forwarded _ _ _ _ _ _ hforwarded).2

/-- The client sends the statement and decodes the reply. -/
theorem client_sends (haccepts : m.Accepts (sqlBody call.sql call.params))
    (hkey : validHeaderValue call.idempotencyKey = true) :
    ∃ body, Received m call body ∧
      (client m w).sqlExecute call.sql call.params call.idempotencyKey =
        doAndDecode m.json SQLResult.zero m.json.decodeSQLResult
          (m.postSQL w call.idempotencyKey body) := by
  obtain ⟨text, htext, hdecoded⟩ := decodeBody_sql m call
  refine ⟨utf8 text, ⟨haccepts.read htext, hdecoded⟩, ?_⟩
  simp [client, htext, hkey]

/-- A call that is answered from the table gets the stored response. -/
theorem client_replayed {res : Result} {ir : IdempotencyResult} {stored : Response}
    (haccepts : m.Accepts (sqlBody call.sql call.params))
    (hkey : validHeaderValue call.idempotencyKey = true)
    (hsent : receivedHeader call.idempotencyKey ≠ "") (hval : m.validated call = .ok res)
    (hbegun : w.begun = .ok ir) (hreplay : ir.replay = true) (hstatus : ir.statusCode < 400)
    (hbody : ir.body = responseBody stored) (hstable : stored.Stable m.json)
    (hsize : (responseBody stored).length ≤ maxResponseSize) :
    (client m w).sqlExecute call.sql call.params call.idempotencyKey = .ok stored.received := by
  obtain ⟨body, hreceived, hclient⟩ := client_sends w haccepts hkey
  have hpost : m.postSQL w call.idempotencyKey body =
      { status := ir.statusCode, contentType := "application/json", replayed := true
        body := responseBody stored } := by
    unfold Mcp.validated at hval
    rw [postSQL_eq]
    simp only [handleSQLExecute, Mcp.sqlRequest, hreceived.read, hreceived.decoded, hval,
      if_neg hsent, hbegun, hreplay, if_true, hbody]
  rw [hclient, hpost]
  exact doAndDecode_document _ _ _ hstatus hsize (unmarshal_response hstable)
    (decode_response hstable)

variable (haccepts : m.Accepts (sqlBody call.sql call.params))
  (hproceeds : Proceeds w call.idempotencyKey)

include haccepts hproceeds

/-- A statement that is refused. -/
theorem client_refused (hq : m.api.q.Explains) {code message : String}
    (hval : m.validated call = .error (.validation code message))
    (hsize : (problemReply (mapError (some (.validation code message)))).body.length ≤
      maxResponseSize) :
    (client m w).sqlExecute call.sql call.params call.idempotencyKey =
      .error (code ++ ": " ++ message) := by
  obtain ⟨body, hreceived, hclient⟩ := client_sends w haccepts hproceeds.valid
  obtain ⟨hcode, hmessage⟩ := validate_explains hq hval
  rw [hclient, postSQL_refused w hreceived hval,
    doAndDecode_problem _ _ _ (mapError_status_ge _), List.take_of_length_le hsize,
    gatewayError_problem _ hcode hmessage]
  rfl

/-- A statement that fails. -/
theorem client_failed {res : Result} {e : Failure} (hval : m.validated call = .ok res)
    (hfailed : m.outcome w call res = .error e) :
    ∃ text, (client m w).sqlExecute call.sql call.params call.idempotencyKey = .error text := by
  obtain ⟨body, hreceived, hclient⟩ := client_sends w haccepts hproceeds.valid
  rw [hclient, postSQL_executed w hreceived hval hproceeds, hfailed]
  exact ⟨_, doAndDecode_problem _ _ _ (mapError_status_ge e)⟩

/-- A statement that succeeds, and whose response comes through. -/
theorem client_succeeded {res : Result} {response : Response} (hval : m.validated call = .ok res)
    (hok : m.outcome w call res = .ok response) (hstable : response.Stable m.json)
    (hlimit : 0 < m.api.maxResponseBodyBytes →
      ((responseBody response).length : Int) ≤ m.api.maxResponseBodyBytes)
    (hsize : (responseBody response).length ≤ maxResponseSize) :
    (client m w).sqlExecute call.sql call.params call.idempotencyKey =
      .ok response.received := by
  obtain ⟨body, hreceived, hclient⟩ := client_sends w haccepts hproceeds.valid
  have hfinish : (finishSQL m.api.maxResponseBodyBytes (.ok response)).1 =
      { status := 200, contentType := "application/json", replayed := false
        body := responseBody response } := by
    unfold finishSQL
    simp only
    rw [if_neg]
    rintro ⟨hpos, hlarge⟩
    have hle := hlimit hpos
    omega
  rw [hclient, postSQL_executed w hreceived hval hproceeds, hok, hfinish]
  exact doAndDecode_document _ _ _ (show (200 : Int) < 400 by decide) hsize
    (unmarshal_response hstable) (decode_response hstable)

end Sql

/-- A statement that is no query has no columns. -/
theorem columns_of_outcome {m : Mcp} {w : Surroundings} {call : ToolCall m.json} {res : Result}
    {response : Response} (hok : m.outcome w call res = .ok response)
    (hquery : (res.isSelect || res.hasReturning) = false) : response.columns = [] := by
  unfold Mcp.outcome Mcp.executed Surroundings.executeInput at hok
  by_cases hcarried : Carried m.api.executor w.ws.workspaceID w.ws.pgRole res w.sql
  · rw [(execute_of_carried _ _ _ _ _ _ hcarried).2, Except.ok.injEq] at hok
    rw [← hok, answered, if_neg (by rw [hquery]; exact Bool.false_ne_true)]
  · obtain ⟨e, he⟩ := (execute_of_not_carried m.api.q w.conn call.sql
      (call.params.getD []) _ _ hcarried).2
    rw [he] at hok
    cases hok

/-- Both sides have the same result when a query has columns. -/
theorem embedded_eq_received {m : Mcp} {w : Surroundings} {call : ToolCall m.json} {res : Result}
    {response : Response} (hok : m.outcome w call res = .ok response)
    (hcolumns : (res.isSelect || res.hasReturning) = true → response.columns ≠ []) :
    embedded res response = response.received := by
  have hsame : (if (res.isSelect || res.hasReturning) = true then some response.columns else none) =
      if response.columns.isEmpty = true then none else some response.columns := by
    -- A query makes its columns, which the gateway leaves out when there are none.
    cases hquery : res.isSelect || res.hasReturning with
    | false => rw [columns_of_outcome hok hquery]; rfl
    | true =>
      rw [if_pos rfl, if_neg]
      rw [List.isEmpty_iff]
      exact hcolumns hquery
  unfold embedded Response.received
  rw [hsame]

/-! ### Procedures -/

theorem CallError.problem_status_ge (e : CallError) : 400 ≤ e.problem.status := by
  cases e with
  | unknownProcedure => exact (show (400 : Int) ≤ 404 by decide)
  | roleNotPermitted => exact (show (400 : Int) ≤ 403 by decide)
  | schema => exact mapError_status_ge _
  | begin e =>
    cases e with
    | pg => exact mapError_status_ge _
    | store e =>
      cases e with
      | conflict => exact (show (400 : Int) ≤ 409 by decide)
      | _ => exact mapError_status_ge _
  | run => exact mapError_status_ge _

theorem jsonResult_valid (j : GoJson) {v : Value} (h : v.valid = true) :
    (jsonResult j v).isError = false := by
  obtain ⟨text, htext⟩ := marshal_of_valid v h
  unfold jsonResult
  rw [htext]

section Rpc

variable (m : Mcp) (w : Surroundings) (call : ToolCall m.json)

/-- What `Call` returns for the procedure of a call. -/
def Mcp.result : Except CallError CallResult :=
  m.called w call.procedure (call.rpcArgs.getD [])

variable {call}

theorem result_replay {res : CallResult} (h : m.result w call = .ok res) : res.replay = false := by
  by_contra hreplay
  rw [Bool.not_eq_false] at hreplay
  obtain ⟨proc, ir, -, -, -, hkey, -⟩ := (call_replay_iff m.api.registry w.conn
    (m.callInput w call.procedure (call.rpcArgs.getD []))).mp ⟨res, h, hreplay⟩
  exact hkey rfl

/-- The gateway makes the call the request asks for. -/
theorem postRPC_result {text : String} (hread : m.readBody (utf8 text) = .ok ())
    (hdecoded : m.decodeBody m.json.decodeRpcRequest (utf8 text) =
      .ok { procedure := call.procedure, args := call.rpcArgs.getD [] }) :
    (∀ e, m.result w call = .error e → m.postRPC w (utf8 text) = problemReply e.problem) ∧
      ∀ res, m.result w call = .ok res →
        m.postRPC w (utf8 text) =
          { status := 200, contentType := "application/json", replayed := false
            body := utf8 ((res.marshal.map (· ++ "\n")).getD "") } := by
  have hcall : m.result w call = (Dispatcher.call m.api.registry w.conn
      ((m.rpcRequest w (utf8 text)).call w.ws
        { procedure := call.procedure, args := call.rpcArgs.getD [] } m.api.statementTimeout
        m.api.idleInTxTimeout)).outcome := rfl
  have hread' : (m.rpcRequest w (utf8 text)).readBody = .ok () := hread
  have hdecoded' : (m.rpcRequest w (utf8 text)).decoded =
      .ok { procedure := call.procedure, args := call.rpcArgs.getD [] } := hdecoded
  constructor
  · intro e he
    rw [hcall] at he
    simp only [Mcp.postRPC, handleRPCCall, hread', hdecoded', he]
    rfl
  · intro res hres
    have hreplay := result_replay m w hres
    rw [hcall] at hres
    simp only [Mcp.postRPC, handleRPCCall, hread', hdecoded', hres, hreplay, Bool.false_eq_true,
      if_false]
    rfl

/-- The client sends the call and decodes the reply. -/
theorem client_calls (haccepts : m.Accepts (rpcBody call.procedure call.rpcArgs)) :
    ∃ text, m.readBody (utf8 text) = .ok () ∧
      m.decodeBody m.json.decodeRpcRequest (utf8 text) =
        .ok { procedure := call.procedure, args := call.rpcArgs.getD [] } ∧
      (client m w).rpcCall call.procedure call.rpcArgs =
        doAndDecode m.json none m.json.decodeMap (m.postRPC w (utf8 text)) := by
  obtain ⟨text, htext, hdecoded⟩ := decodeBody_rpc m call
  refine ⟨text, haccepts.read htext, hdecoded, ?_⟩
  simp only [client, htext]

variable (haccepts : m.Accepts (rpcBody call.procedure call.rpcArgs))

include haccepts

/-- A call that fails. -/
theorem client_call_failed {e : CallError} (h : m.result w call = .error e) :
    ∃ text, (client m w).rpcCall call.procedure call.rpcArgs = .error text := by
  obtain ⟨text, hread, hdecoded, hclient⟩ := client_calls m w haccepts
  rw [hclient, (postRPC_result m w hread hdecoded).1 e h]
  exact ⟨_, doAndDecode_problem _ _ _ e.problem_status_ge⟩

/-- A call that succeeds with a result the client can read. -/
theorem client_call_succeeded {res : CallResult} (h : m.result w call = .ok res)
    (hreadable : res.Readable m.json)
    (hsize : (utf8 ((res.marshal.map (· ++ "\n")).getD "")).length ≤ maxResponseSize) :
    ∃ fields, (client m w).rpcCall call.procedure call.rpcArgs = .ok (some fields) ∧
      validFields fields = true := by
  obtain ⟨text, hread, hdecoded, hclient⟩ := client_calls m w haccepts
  obtain ⟨fields, hfields, hvalid⟩ := decode_call hreadable
  refine ⟨fields, ?_, hvalid⟩
  rw [hclient, (postRPC_result m w hread hdecoded).2 res h]
  exact doAndDecode_document _ _ _ (show (200 : Int) < 400 by decide) hsize
    (unmarshal_call hreadable) hfields

end Rpc

/-- A result that is an object or null. -/
def IsMap (result : Option Value) : Prop :=
  result = none ∨ result = some .null ∨ ∃ fields, result = some (.object fields)

/-- `directDoer` reads such a result into a map. -/
theorem decodeResult_map {j : GoJson} {res : CallResult} (hreadable : res.Readable j)
    (hmap : IsMap res.result) :
    ∃ result, j.decodeResult res.result = .ok result ∧ (ofMap result).valid = true := by
  rcases hmap with hnone | hnull | ⟨fields, hobject⟩
  · exact ⟨none, by rw [hnone]; rfl, rfl⟩
  · exact ⟨none, by rw [hnull]; rfl, rfl⟩
  · obtain ⟨hsome, hdepth⟩ := hreadable.result _ hobject
    obtain ⟨w, hw⟩ := Option.isSome_iff_exists.mp hsome
    rw [GoJson.decode, Option.map_eq_some_iff] at hw
    obtain ⟨ws, hws, -⟩ := hw
    refine ⟨some (mapOf ws), ?_, validFields_mapOf (decodeFields_valid j fields ws hws)⟩
    have hcolumn : j.columnMap (.object fields) = some (some (mapOf ws)) := by
      unfold GoJson.columnMap
      rw [if_pos (by omega), GoJson.decodeMap, hws, Option.map_some]
    rw [hobject, GoJson.decodeResult, hcolumn]

/-! ### The comparison -/

/-- A response that comes through: its rows are unchanged by a JSON document, it
    has a column if it is one of a query, and it is within the limits of the
    gateway and of the client. -/
structure Carriable (m : Mcp) (res : Result) (response : Response) : Prop where
  stable : response.Stable m.json
  columns : (res.isSelect || res.hasReturning) = true → response.columns ≠ []
  limit : 0 < m.api.maxResponseBodyBytes →
    ((responseBody response).length : Int) ≤ m.api.maxResponseBodyBytes
  size : (responseBody response).length ≤ maxResponseSize

/-- A call of `sql_execute` that is compared: it is not answered from the
    idempotency table, and what goes over the wire for it is carried whole. -/
structure SqlComparable (m : Mcp) (w : Surroundings) (call : ToolCall m.json) : Prop where
  accepts : m.Accepts (sqlBody call.sql call.params)
  proceeds : Proceeds w call.idempotencyKey
  refused : ∀ e, m.validated call = .error e →
    (problemReply (mapError (some e))).body.length ≤ maxResponseSize
  carried : ∀ res response, m.validated call = .ok res → m.outcome w call res = .ok response →
    Carriable m res response

/-- A call of `rpc_call` that is compared: a result is an object or null, and
    what goes over the wire is carried whole. -/
structure RpcComparable (m : Mcp) (w : Surroundings) (call : ToolCall m.json) : Prop where
  accepts : m.Accepts (rpcBody call.procedure call.rpcArgs)
  carried : ∀ res, m.result w call = .ok res → IsMap res.result ∧ res.Readable m.json ∧
    (utf8 ((res.marshal.map (· ++ "\n")).getD "")).length ≤ maxResponseSize

section Tools

variable (m : Mcp) (w : Surroundings) (call : ToolCall m.json)

variable {m call}

/-- A tool call with a statement comes to what its `Doer` returns. -/
theorem handleSQLExecute_error {d : Doer} {text : String} (hsql : call.sql ≠ "")
    (h : d.sqlExecute call.sql call.params call.idempotencyKey = .error text) :
    Tools.handleSQLExecute m.json d call = errResult text := by
  unfold Tools.handleSQLExecute
  rw [if_neg hsql, h]

theorem handleSQLExecute_ok {d : Doer} {result : SQLResult} (hsql : call.sql ≠ "")
    (h : d.sqlExecute call.sql call.params call.idempotencyKey = .ok result) :
    Tools.handleSQLExecute m.json d call = jsonResult m.json result.document := by
  unfold Tools.handleSQLExecute
  rw [if_neg hsql, h]

theorem direct_refused {e : Failure} (hval : m.validated call = .error e) :
    (directDoer m w).sqlExecute call.sql call.params call.idempotencyKey =
      .error (w.errorText e) := by
  unfold Mcp.validated at hval
  simp only [directDoer, hval]

theorem direct_executed {res : Result} (hval : m.validated call = .ok res) :
    (∀ e, m.outcome w call res = .error e →
      (directDoer m w).sqlExecute call.sql call.params call.idempotencyKey =
        .error (w.errorText e)) ∧
    ∀ response, m.outcome w call res = .ok response →
      (directDoer m w).sqlExecute call.sql call.params call.idempotencyKey =
        .ok (embedded res response) := by
  unfold Mcp.validated at hval
  unfold Mcp.outcome
  constructor
  · intro e he
    simp only [directDoer, hval, he]
  · intro response hok
    simp only [directDoer, hval, hok]

/-- `sql_execute` on both sides. -/
theorem sql_agrees (hq : m.api.q.Explains) (h : call.sql ≠ "" → SqlComparable m w call) :
    (Tools.handleSQLExecute m.json (directDoer m w) call).isError =
        (Tools.handleSQLExecute m.json (client m w) call).isError ∧
      ((¬ ∃ res e, m.validated call = .ok res ∧ m.outcome w call res = .error e) →
        Tools.handleSQLExecute m.json (directDoer m w) call =
          Tools.handleSQLExecute m.json (client m w) call) := by
  by_cases hsql : call.sql = ""
  · -- Nothing is asked of either.
    have hmissing : ∀ d : Doer, Tools.handleSQLExecute m.json d call =
        errResult "required parameter 'sql' is missing or empty" := by
      intro d
      unfold Tools.handleSQLExecute
      rw [if_pos hsql]
    rw [hmissing, hmissing]
    exact ⟨rfl, fun _ => rfl⟩
  · have hcomparable := h hsql
    cases hval : m.validated call with
    | error e =>
      -- The title and the detail of the problem are the two parts of the error's text.
      obtain ⟨code, message, rfl⟩ := validate_error hval
      rw [handleSQLExecute_error hsql (direct_refused w hval),
        handleSQLExecute_error hsql (client_refused w hcomparable.accepts
          hcomparable.proceeds hq hval (hcomparable.refused _ hval))]
      exact ⟨rfl, fun _ => rfl⟩
    | ok res =>
      cases hok : m.outcome w call res with
      | error e =>
        -- Both have a text, but not the same one.
        obtain ⟨text, hclient⟩ := client_failed w hcomparable.accepts hcomparable.proceeds hval hok
        rw [handleSQLExecute_error hsql ((direct_executed w hval).1 e hok),
          handleSQLExecute_error hsql hclient]
        exact ⟨rfl, fun hnone => absurd ⟨res, e, rfl, hok⟩ hnone⟩
      | ok response =>
        have hcarried := hcomparable.carried res response hval hok
        rw [handleSQLExecute_ok hsql ((direct_executed w hval).2 response hok),
          handleSQLExecute_ok hsql (client_succeeded w hcomparable.accepts
            hcomparable.proceeds hval hok hcarried.stable hcarried.limit hcarried.size),
          embedded_eq_received hok hcarried.columns]
        exact ⟨rfl, fun _ => rfl⟩

/-- `rpc_call` on both sides. -/
theorem rpc_agrees (h : call.procedure ≠ "" → RpcComparable m w call) :
    (Tools.handleRPCCall m.json (directDoer m w) call).isError =
        (Tools.handleRPCCall m.json (client m w) call).isError ∧
      (call.procedure = "" →
        Tools.handleRPCCall m.json (directDoer m w) call =
          Tools.handleRPCCall m.json (client m w) call) := by
  unfold Tools.handleRPCCall
  by_cases hprocedure : call.procedure = ""
  · rw [if_pos hprocedure, if_pos hprocedure]
    exact ⟨rfl, fun _ => rfl⟩
  · refine ⟨?_, fun hempty => absurd hempty hprocedure⟩
    have hcomparable := h hprocedure
    rw [if_neg hprocedure, if_neg hprocedure]
    cases hresult : m.result w call with
    | error e =>
      obtain ⟨text, hclient⟩ := client_call_failed m w hcomparable.accepts hresult
      have hdirect : (directDoer m w).rpcCall call.procedure call.rpcArgs =
          .error (w.errorText e.failure) := by
        unfold Mcp.result at hresult
        simp only [directDoer, hresult]
      rw [hdirect, hclient]
      rfl
    | ok res =>
      obtain ⟨hmap, hreadable, hsize⟩ := hcomparable.carried res hresult
      -- The client has the whole envelope and `directDoer` what is inside it.
      obtain ⟨fields, hclient, hvalid⟩ := client_call_succeeded m w hcomparable.accepts
        hresult hreadable hsize
      obtain ⟨result, hdecoded, hvalid'⟩ := decodeResult_map hreadable hmap
      have hdirect : (directDoer m w).rpcCall call.procedure call.rpcArgs = .ok result := by
        unfold Mcp.result at hresult
        simp only [directDoer, hresult, hdecoded]
      rw [hdirect, hclient]
      exact (jsonResult_valid m.json hvalid').trans
        (jsonResult_valid m.json (v := ofMap (some fields)) hvalid).symm

end Tools

/-- For every call of the two tools that is compared: both sides flag an error or
    neither does, and the texts are the same as well, except for a statement that
    fails in the database and for a procedure that is called. -/
theorem embedded_agrees_with_standalone (m : Mcp) (hq : m.api.q.Explains) (w : Surroundings)
    (call : ToolCall m.json) :
    ((call.sql ≠ "" → SqlComparable m w call) →
      (Tools.handleSQLExecute m.json (directDoer m w) call).isError =
        (Tools.handleSQLExecute m.json (client m w) call).isError ∧
      ((¬ ∃ res e, m.validated call = .ok res ∧ m.outcome w call res = .error e) →
        Tools.handleSQLExecute m.json (directDoer m w) call =
          Tools.handleSQLExecute m.json (client m w) call)) ∧
    ((call.procedure ≠ "" → RpcComparable m w call) →
      (Tools.handleRPCCall m.json (directDoer m w) call).isError =
        (Tools.handleRPCCall m.json (client m w) call).isError ∧
      (call.procedure = "" →
        Tools.handleRPCCall m.json (directDoer m w) call =
          Tools.handleRPCCall m.json (client m w) call)) :=
  ⟨sql_agrees w hq, rpc_agrees w⟩

/-- A library that writes every number as it was read. -/
def exactJson : GoJson :=
  { float := fun lit => if isNumber lit.toList then some lit else none
    number := by
      intro lit out h
      by_cases hlit : isNumber lit.toList
      · rw [if_pos hlit, Option.some.injEq] at h
        rw [← h]
        exact ⟨hlit, hlit⟩
      · rw [if_neg hlit] at h
        cases h
    int64 := by
      intro i _ _
      rw [if_pos (isNumber_toString i)]
      rfl
    marshalError := fun _ => "json: unsupported value: NaN"
    unmarshalError := fun _ => "unexpected end of JSON input" }

/-- A deployment with one procedure, whose validator sees a query in the text
    `SELECT 1` and an insert in any other. -/
def plainMcp : Mcp :=
  { api := { bareApi with
      q := { parse := fun sql =>
          .ok [some (if sql = "SELECT 1" then .selectStmt else .insertStmt 0)]
             scan := fun _ => .ok [] }
      registry := fun name => some { name := name, requiredRole := "", body := "SELECT 1"
                                     schema := fun _ => .ok () } }
    json := exactJson, maxRequestBodyBytes := 1048576, baseURL := "http://localhost:8080" }

/-- A database that answers everything, and an idempotency store without an
    entry. -/
def plainSurroundings : Surroundings :=
  { ws := adminContext, conn := openedConn, info := ⟨"req", "127.0.0.1", 1⟩, begun := .ok proceed
    sql := { begin := none, setup := ⟨none, none, none, none, none⟩, effects := []
             query := .ok ["?column?"], rows := [.ok [.number "1"]], rowsErr := none, exec := .ok 1
             commit := none, durationMS := 2 }
    callBegun := .ok proceed
    rpc := { begin := none, setup := ⟨none, none, none, none, none⟩, effects := []
             row := .ok (some (.object [("id", .number "7")])), commit := none }
    rpcDurationMS := 3, pgText := fun e => e.code ++ ": " ++ e.message }

/-- A call with strings for arguments. -/
def textCall (args : List (String × String)) : ToolCall plainMcp.json :=
  { args := fun name => (args.lookup name).map .string
    decoded := by
      intro name v h
      obtain ⟨s, -, rfl⟩ := Option.map_eq_some_iff.mp h
      rfl
    nested := by
      intro name v h
      obtain ⟨s, -, rfl⟩ := Option.map_eq_some_iff.mp h
      exact (show (3 : Nat) ≤ maxNestingDepth by decide) }

/-- A query of one row, and a procedure. -/
def selectOne : ToolCall plainMcp.json :=
  textCall [("sql", "SELECT 1"), ("procedure", "next_id")]

/-- The classification of the query. -/
def selectResult : Result :=
  { command := "SELECT", isSelect := true, hasReturning := false, placeholderCount := 0 }

/-- The response to the query. -/
def selectResponse : Response :=
  { command := "SELECT", columns := ["?column?"], rows := [[.number "1"]], rowsAffected := 1
    durationMS := 2 }

theorem selectOne_validated : plainMcp.validated selectOne = .ok selectResult := by
  rfl

theorem selectOne_outcome :
    plainMcp.outcome plainSurroundings selectOne selectResult = .ok selectResponse := by
  rfl

theorem selectResponse_carriable : Carriable plainMcp selectResult selectResponse := by
  refine ⟨⟨?_, by decide, by decide⟩, ?_, ?_, by decide +kernel⟩
  · intro row hrow v hv
    rw [selectResponse, List.mem_singleton] at hrow
    rw [hrow, List.mem_singleton] at hv
    rw [hv]
    exact ⟨rfl, by decide⟩
  · intro _ hnil
    cases hnil
  · intro hpos
    exact absurd hpos (by decide)

theorem selectOne_sqlComparable : SqlComparable plainMcp plainSurroundings selectOne := by
  refine ⟨?_, .inl rfl, ?_, ?_⟩
  · intro text htext
    rw [← Option.some.inj htext]
    decide +kernel
  · intro e he
    rw [selectOne_validated] at he
    cases he
  · intro res response hval hok
    rw [selectOne_validated, Except.ok.injEq] at hval
    rw [← hval, selectOne_outcome, Except.ok.injEq] at hok
    rw [← hval, ← hok]
    exact selectResponse_carriable

theorem selectOne_rpcComparable : RpcComparable plainMcp plainSurroundings selectOne := by
  have hresult : plainMcp.result plainSurroundings selectOne =
      .ok { procedure := "next_id", result := some (.object [("id", .number "7")]), durationMS := 3
            replay := false, cachedStatus := 0, cachedBody := [] } := by
    rfl
  refine ⟨?_, ?_⟩
  · intro text htext
    rw [← Option.some.inj htext]
    decide +kernel
  · intro res hres
    rw [hresult, Except.ok.injEq] at hres
    rw [← hres]
    refine ⟨.inr (.inr ⟨_, rfl⟩), ⟨?_, by decide⟩, by decide +kernel⟩
    intro v hv
    rw [← Option.some.inj hv]
    exact ⟨rfl, by decide⟩

/-- The query gives the same text through both, and the procedure the same
    flag. -/
theorem select_one_agrees :
    plainMcp.api.q.Explains ∧
    Tools.handleSQLExecute plainMcp.json (directDoer plainMcp plainSurroundings) selectOne =
      Tools.handleSQLExecute plainMcp.json (client plainMcp plainSurroundings) selectOne ∧
    (Tools.handleRPCCall plainMcp.json (directDoer plainMcp plainSurroundings) selectOne).isError =
      (Tools.handleRPCCall plainMcp.json (client plainMcp plainSurroundings)
        selectOne).isError := by
  have hq : plainMcp.api.q.Explains := by
    constructor
    · intro sql e h
      cases h
    · intro sql e h
      cases h
  have hagrees := embedded_agrees_with_standalone plainMcp hq plainSurroundings selectOne
  refine ⟨hq, (hagrees.1 fun _ => selectOne_sqlComparable).2 ?_,
    (hagrees.2 fun _ => selectOne_rpcComparable).1⟩
  rintro ⟨res, e, hval, hfailed⟩
  rw [selectOne_validated, Except.ok.injEq] at hval
  rw [← hval, selectOne_outcome] at hfailed
  cases hfailed

/-- An insert with an idempotency key. -/
def insertCall : ToolCall plainMcp.json :=
  textCall [("sql", "INSERT INTO t VALUES (1)"), ("idempotency_key", "k1")]

/-- The response to the insert when it was first sent. -/
def insertResponse : Response :=
  { command := "INSERT", columns := [], rows := [], rowsAffected := 1, durationMS := 2 }

/-- The insert is sent again. The first reply is stored, and the row is in the
    table. -/
def retrying : Surroundings :=
  { plainSurroundings with
    begun := .ok { replay := true, statusCode := 200, body := responseBody insertResponse }
    sql := { plainSurroundings.sql with
      exec := .error
        (.pg ⟨"23505", "duplicate key value violates unique constraint \"t_pkey\""⟩) } }

/-- The retried insert gets its first response through the client, and fails
    through `directDoer`, which runs it again. -/
theorem retried_insert_differs :
    Tools.handleSQLExecute plainMcp.json (directDoer plainMcp retrying) insertCall ≠
      Tools.handleSQLExecute plainMcp.json (client plainMcp retrying) insertCall := by
  have hsql : insertCall.sql ≠ "" := by decide
  have hval : plainMcp.validated insertCall = .ok
      { command := "INSERT", isSelect := false, hasReturning := false, placeholderCount := 0 } := by
    rfl
  have hstable : insertResponse.Stable plainMcp.json :=
    ⟨fun row hrow => absurd hrow List.not_mem_nil, by decide, by decide⟩
  have hclient := client_replayed retrying
    (by
      intro text htext
      rw [← Option.some.inj htext]
      decide +kernel)
    (by decide) (by decide) hval rfl rfl (by decide) rfl hstable (by decide +kernel)
  have hdirect := (direct_executed retrying hval).1 _ rfl
  rw [handleSQLExecute_error hsql hdirect, handleSQLExecute_ok hsql hclient]
  intro heq
  have hflag : (jsonResult plainMcp.json insertResponse.received.document).isError = true :=
    (congrArg ToolResult.isError heq).symm
  exact absurd hflag (by decide +kernel)

end CoopDB
