import CoopDB.Theory.Caller
import CoopDB.Theory.Idempotency.Replay
import CoopDB.Theory.Json.Replies

/-!
# A Replay on the RPC Endpoint

`Dispatcher.Call` stores a result that `handleRPCCall` never sends. The handler
encodes the whole `CallResult`, with the three fields that are meant for
replays, and the dispatcher stores a map of the other three. For an error the
handler sends the problem document and the status of `MapError`, and the
dispatcher stores 500 and the map with a null result.

So a replay has another document than the first reply, and for the errors that
`MapError` knows another status as well. The exception is a result that has no
JSON form. Both encoders drop their error, and both bodies are empty.

## Main definitions

* `RpcServed`: The handler behind a request of the gateway.
* `sentReply`, `storedDocument`: What is sent and what is stored for an outcome.

## Theorems

* `handleRPCCall_executed`, `handleRPCCall_replayed`: The two replies.
* `rpc_replay_same_iff`: A replay has the status and the document of the first reply
  exactly if the procedure succeeded with a result that has no JSON form.
* `conflict_replayed_as_internal`: A 409 that is replayed as a 500.
-/

namespace CoopDB

open Json
open Transition (run Allowed)

/-- The result of a call that ran, as `Call` returns it. -/
def ranResult (procedure : String) (result : Option Value) (durationMS : Int) : CallResult :=
  { procedure := procedure, result := result, durationMS := durationMS, replay := false
    cachedStatus := 0, cachedBody := [] }

/-- What `handleRPCCall` sends for an outcome of the transaction. -/
def sentReply (procedure : String) (result : Except Failure (Option Value)) (durationMS : Int) :
    ApiReply :=
  match result with
  | .error e => .problem (mapError (some e))
  | .ok v =>
    .document 200 false (utf8 (((ranResult procedure v durationMS).marshal.map
      (· ++ "\n")).getD ""))

/-- The document that is stored, for a value of the procedure. -/
def storedDocument (procedure : String) (v : Value) (durationMS : Int) : Value :=
  .object [("duration_ms", .number (toString durationMS)), ("procedure", .string procedure),
    ("result", v)]

/-! ### What is sent and what is stored -/

theorem valid_stored (procedure : String) (v : Value) (durationMS : Int) (hv : v.valid = true) :
    (storedDocument procedure v durationMS).valid = true := by
  change (isNumber (toString durationMS).toList && (true && (v.valid && true))) = true
  rw [isNumber_toString, hv]
  rfl

/-- The stored body is read as the stored document. -/
theorem documentOf_stored (procedure : String) {result : Except Failure (Option Value)}
    (durationMS : Int) {v : Value} (hv : v.valid = true) (hresult : rpcResult result = v.marshal) :
    documentOf (finishRPC procedure result durationMS).body =
      some (storedDocument procedure v durationMS) := by
  rcases marshal_of_valid v hv with ⟨text, htext⟩
  have hmarshal : (storedDocument procedure v durationMS).marshal = some (Json.object
      [("duration_ms", toString durationMS), ("procedure", Json.quote procedure),
        ("result", text)]) := by
    simp only [storedDocument, Value.marshal, marshalFields, htext]
    rfl
  have hread := documentOf_text (valid_stored procedure v durationMS hv) hmarshal
  unfold finishRPC
  rw [hresult, htext, Option.map_some, Option.getD_some]
  exact hread

/-- A problem is not what is stored for it: it has a title. -/
theorem problem_ne_stored (p : Problem) (procedure : String) (v : Value) (durationMS : Int) :
    p.document.canonical ≠ (storedDocument procedure v durationMS).canonical := by
  intro h
  have htitle := field_isSome_of_canonical h "title"
  simp only [field_append, field_cons, field_nil, field_unlessEmpty, String.reduceEq, if_false,
    if_true, Option.none_or, Option.or_none, Option.isSome_some, Option.isSome_none,
    Bool.true_eq_false] at htitle

/-- A result is not what is stored for it: it has the fields for replays. -/
theorem call_ne_stored (r : CallResult) (procedure : String) (v : Value) (durationMS : Int) :
    r.document.canonical ≠ (storedDocument procedure v durationMS).canonical := by
  intro h
  have hreplay := field_isSome_of_canonical h "Replay"
  simp only [field_cons, field_nil, String.reduceEq, if_false, if_true, Option.none_or,
    Option.some_or, Option.isSome_some, Option.isSome_none, Bool.true_eq_false] at hreplay

/-- What is sent for a success is not the document that is stored. -/
theorem sent_ne_stored (procedure : String) {result : Option Value} (durationMS : Int) {v : Value}
    (hv : v.valid = true) (hresult : result.getD .null = v) :
    ¬ SameDocument (sentReply procedure (.ok result) durationMS).http.body
      (finishRPC procedure (.ok result) durationMS).body := by
  intro h
  have hvalid := valid_call (ranResult procedure result durationMS) (hresult ▸ hv)
  rcases marshal_of_valid _ hvalid with ⟨text, htext⟩
  have hsent := documentOf_marshal "\n" hvalid htext rfl
  have hstored : rpcResult (.ok result) = v.marshal := by
    rw [← hresult]
    cases result with
    | none | some => rfl
  have hbody : (sentReply procedure (.ok result) durationMS).http.body = utf8 (text ++ "\n") := by
    simp only [sentReply, ApiReply.http]
    rw [← marshal_call, htext, Option.map_some, Option.getD_some]
  rw [hbody] at h
  exact call_ne_stored _ procedure v durationMS
    (h.canonical hsent (documentOf_stored procedure durationMS hv hstored))

/-- What is sent and what is stored are the same exactly for a result that has
    no JSON form. -/
theorem sent_same_iff_stored (procedure : String) (result : Except Failure (Option Value))
    (durationMS : Int)
    (hjson : ∀ v, result = .ok (some v) → v.valid = true ∨ v.marshal = none) :
    ((finishRPC procedure result durationMS).status =
        (sentReply procedure result durationMS).http.status ∧
      SameDocument (sentReply procedure result durationMS).http.body
        (finishRPC procedure result durationMS).body) ↔
      ∃ v, result = .ok (some v) ∧ v.marshal = none := by
  constructor
  · rintro ⟨_, hsame⟩
    cases result with
    | error e =>
      -- The client gets the problem of the error, and the store a null result.
      have hsent := documentOf_marshal "\n" (valid_problem (mapError (some e)))
        (marshal_problem _) rfl
      exact absurd (hsame.canonical hsent (documentOf_stored procedure durationMS rfl rfl))
        (problem_ne_stored _ procedure .null durationMS)
    | ok result =>
      cases result with
      | none => exact absurd hsame (sent_ne_stored procedure durationMS rfl rfl)
      | some v =>
        rcases hjson v rfl with hv | hnone
        · exact absurd hsame (sent_ne_stored procedure durationMS hv rfl)
        · exact ⟨v, rfl, hnone⟩
  · rintro ⟨v, rfl, hnone⟩
    refine ⟨rfl, .inl ?_⟩
    -- Neither of the two has a text, and both bodies are empty.
    simp [sentReply, ApiReply.http, ranResult, CallResult.marshal, finishRPC, rpcResult, hnone]

/-! ### The handler -/

section Handler

variable (registry : Registry) (statementTimeout idleInTxTimeout : Time) (c : Conn)
  (info : RequestInfo) (ws : WorkspaceContext) (x : RpcRequest)

/-- The checks in front of the idempotency layer. -/
structure RpcPasses (req : RpcCallRequest) (proc : Procedure) : Prop where
  readBody : ∃ u, x.readBody = .ok u
  decoded : x.decoded = .ok req
  registered : registry req.procedure = some proc
  role : ¬ (proc.requiredRole ≠ "" ∧ proc.requiredRole ≠ ws.pgRole)
  schema : ∃ u, proc.schema req.args = .ok u

/-- The outcome of the transaction of a call. -/
def callOutcome (req : RpcCallRequest) (proc : Procedure) : Except Failure (Option Value) :=
  (Dispatcher.run c proc.body
    { workspaceID := ws.workspaceID, pgRole := ws.pgRole, args := req.args
      statementTimeout := statementTimeout, idleInTxTimeout := idleInTxTimeout } x.db).2.outcome

/-- A request that is told to execute sends the reply for its outcome. -/
theorem handleRPCCall_executed {req : RpcCallRequest} {proc : Procedure}
    (hpass : RpcPasses registry ws x req proc) (hkey : x.idemKey ≠ "")
    (hbegun : x.begun = .ok proceed) :
    (handleRPCCall registry statementTimeout idleInTxTimeout c info ws x).reply =
      sentReply proc.name (callOutcome statementTimeout idleInTxTimeout c ws x req proc)
        x.durationMS := by
  rcases hpass.readBody with ⟨u, hread⟩
  rcases hpass.schema with ⟨u', hschema⟩
  have hcall : Dispatcher.call registry c (x.call ws req statementTimeout idleInTxTimeout) =
      Dispatcher.dispatch c proc (x.call ws req statementTimeout idleInTxTimeout) := by
    simp only [Dispatcher.call, RpcRequest.call, hpass.registered, if_neg hpass.role, hschema,
      if_neg hkey, hbegun, proceed, Bool.false_eq_true, if_false]
  unfold handleRPCCall callOutcome
  simp only [hread, hpass.decoded, hcall]
  simp only [Dispatcher.dispatch, RpcRequest.call]
  cases (Dispatcher.run c proc.body
        { workspaceID := ws.workspaceID, pgRole := ws.pgRole, args := req.args
          statementTimeout := statementTimeout, idleInTxTimeout := idleInTxTimeout }
        x.db).2.outcome with
  | error e => rfl
  | ok result => rfl

/-- A request that is told to replay sends what it was given. -/
theorem handleRPCCall_replayed {req : RpcCallRequest} {proc : Procedure}
    (hpass : RpcPasses registry ws x req proc) (hkey : x.idemKey ≠ "") {ir : IdempotencyResult}
    (hbegun : x.begun = .ok ir) (hreplay : ir.replay = true) :
    (handleRPCCall registry statementTimeout idleInTxTimeout c info ws x).reply =
      .document ir.statusCode true ir.body := by
  rcases hpass.readBody with ⟨u, hread⟩
  rcases hpass.schema with ⟨u', hschema⟩
  unfold handleRPCCall
  simp only [hread, hpass.decoded, Dispatcher.call, RpcRequest.call, hpass.registered,
    if_neg hpass.role, hschema, if_neg hkey, hbegun, hreplay, if_true]

end Handler

section Replay

variable (d : Deployment) (registry : Registry) (statementTimeout idleInTxTimeout : Time)

/-- The request of the gateway is one to the RPC endpoint. It is `x` that the
    handler serves for the caller `ws` on the connection `c`, and it passes the
    checks in front of the idempotency layer: the store answers the one what the
    handler goes on with, and the outcome of the execution is the one `run`
    returned. -/
structure RpcServed (es : List Event) (s : Gateway) (r : ReqId) (x : RpcRequest)
    (ws : WorkspaceContext) (c : Conn) (req : RpcCallRequest) (proc : Procedure) : Prop where
  endpoint : (d.requests r).endpoint = .rpcCall
  workspace : (d.requests r).workspaceID = ws.workspaceID
  key : (d.requests r).idempotencyKey = x.idemKey
  passes : RpcPasses registry ws x req proc
  begun : ∃ a, (s.reqs r).begun = some a ∧ ∀ ir, x.begun = .ok ir ↔ a = .ok ir
  executed : ∀ o, .request r (.execute o) ∈ es →
    o = .rpc proc.name (callOutcome statementTimeout idleInTxTimeout c ws x req proc) x.durationMS

/-- The first request ran its procedure, with any outcome, and its `Complete`
    returned without an error. A request with the same key and body that
    arrives after that, before the row expires, and makes no failing call to the
    database, is answered with the status and the document of the first reply
    exactly if the procedure succeeded with a result that has no JSON form. -/
theorem rpc_replay_same_iff (k : Slot) (es : List Event) (s : Gateway)
    (hrun : run (step d) initial es = some s)
    (hexp : Allowed (step d) (NoExpiry d k) initial es) (r r' : ReqId) (x x' : RpcRequest)
    (info info' : RequestInfo) (ws ws' : WorkspaceContext) (c c' : Conn) (req : RpcCallRequest)
    (proc : Procedure)
    (hfirst : RpcServed d registry statementTimeout idleInTxTimeout es s r x ws c req proc)
    (hlater : RpcServed d registry statementTimeout idleInTxTimeout es s r' x' ws' c' req proc)
    (hslot : d.slot r = some k) (hslot' : d.slot r' = some k)
    (hhash : (d.requests r').requestHash = (d.requests r).requestHash)
    (hdone : CompletedBefore d es r r')
    (hdb : ∀ a, (s.reqs r').begun = some a → ¬ DatabaseFailed es r' a)
    (hjson : ∀ v, callOutcome statementTimeout idleInTxTimeout c ws x req proc = .ok (some v) →
      v.valid = true ∨ v.marshal = none) :
    ((handleRPCCall registry statementTimeout idleInTxTimeout c' info' ws' x').reply.http.status =
        (handleRPCCall registry statementTimeout idleInTxTimeout c info ws x).reply.http.status ∧
      SameDocument
        (handleRPCCall registry statementTimeout idleInTxTimeout c info ws x).reply.http.body
        (handleRPCCall registry statementTimeout idleInTxTimeout c' info' ws' x').reply.http.body) ↔
      ∃ v, callOutcome statementTimeout idleInTxTimeout c ws x req proc = .ok (some v) ∧
        v.marshal = none := by
  rcases hlater.begun with ⟨a, hbegun, hanswer⟩
  rcases replayed_after_complete d k es s hrun hexp hslot hslot' hhash hdone hbegun
    (hdb a hbegun) with ⟨hfresh, _, o, hmem, ha⟩
  -- What the later request replays is what the dispatcher stored for the outcome.
  have hcompletion : o.completion d.maxResponseBodyBytes = finishRPC proc.name
      (callOutcome statementTimeout idleInTxTimeout c ws x req proc) x.durationMS := by
    rw [hfirst.executed o hmem]
    rfl
  rw [hcompletion] at ha
  have hproceed : x.begun = .ok proceed := by
    rcases hfirst.begun with ⟨b, hb, hir⟩
    rw [Local.Fresh, hb, Option.some.injEq] at hfresh
    exact (hir proceed).mpr hfresh
  have hkey : x.idemKey ≠ "" := by
    rw [← hfirst.key]
    exact idempotencyKey_ne_empty hslot
  have hkey' : x'.idemKey ≠ "" := by
    rw [← hlater.key]
    exact idempotencyKey_ne_empty hslot'
  rw [handleRPCCall_executed registry statementTimeout idleInTxTimeout c info ws x
      hfirst.passes hkey hproceed,
    handleRPCCall_replayed registry statementTimeout idleInTxTimeout c' info' ws' x'
      hlater.passes hkey' ((hanswer _).mpr ha) rfl]
  exact sent_same_iff_stored proc.name _ x.durationMS hjson

end Replay

/-- Requests to the RPC endpoint with one key and one body. -/
def sharedCall : Deployment :=
  { externals := storedExternals
    requests := fun _ =>
      { endpoint := .rpcCall, workspaceID := "w", idempotencyKey := "k", requestHash := "h"
        ttl := idempotencyTTL }
    maxResponseBodyBytes := 0 }

/-- Request 0 runs its procedure and completes, then request 1 comes. -/
def sharedCallRun (result : Except Failure (Option Value)) : List Event :=
  [.request 0 .enter, .reply 0 0, .reply 0 1, .reply 0 2,
    .request 0 (.execute (.rpc "upsert_document" result 3)), .reply 0 4,
    .request 1 .enter, .reply 1 5, .reply 1 6, .reply 1 7, .reply 1 8]

/-- The procedure that is called. -/
def upsertDocument : Procedure :=
  { name := "upsert_document", requiredRole := "", body := "SELECT upsert_document($1)"
    schema := fun _ => .ok () }

/-- The registry with this procedure. -/
def upsertRegistry : Registry :=
  fun name => if name = "upsert_document" then some upsertDocument else none

/-- The caller. -/
def upsertCaller : WorkspaceContext :=
  { workspaceID := "w", keyID := "key", keyDBID := "1", pgRole := "dbuser", env := .live }

/-- The request without arguments. -/
def upsertBody : RpcCallRequest :=
  { procedure := "upsert_document", args := [] }

/-- A call of the procedure, with what the store answers and what comes of the
    query. -/
def upsertCall (row : Except DbError (Option Value)) (begun : IdempotencyResult) : RpcRequest :=
  { readBody := .ok (), decoded := .ok upsertBody, idemKey := "k", begun := .ok begun
    db := { begin := none, setup := ⟨none, none, none, none, none⟩, effects := [], row := row
            commit := none }
    durationMS := 3 }

/-- What is replayed for an outcome. -/
def storedUpsert (result : Except Failure (Option Value)) : IdempotencyResult :=
  { replay := true, statusCode := (finishRPC "upsert_document" result 3).status
    body := (finishRPC "upsert_document" result 3).body }

/-- The two requests of the run are served by the handler, and the second one
    comes after the completion of the first. -/
theorem upsert_served (row : Except DbError (Option Value))
    (result : Except Failure (Option Value))
    (hresult : callOutcome 0 0 usedConn upsertCaller (upsertCall row proceed) upsertBody
      upsertDocument = result) :
    ∃ s, run (step sharedCall) initial (sharedCallRun result) = some s ∧
      RpcServed sharedCall upsertRegistry 0 0 (sharedCallRun result) s 0 (upsertCall row proceed)
        upsertCaller usedConn upsertBody upsertDocument ∧
      RpcServed sharedCall upsertRegistry 0 0 (sharedCallRun result) s 1
        (upsertCall row (storedUpsert result)) upsertCaller usedConn upsertBody upsertDocument ∧
      CompletedBefore sharedCall (sharedCallRun result) 0 1 ∧
      (s.reqs 1).begun = some (.ok (storedUpsert result)) := by
  have hpass : ∀ begun, RpcPasses upsertRegistry upsertCaller (upsertCall row begun) upsertBody
      upsertDocument :=
    fun begun => ⟨⟨(), rfl⟩, rfl, rfl, fun h => h.1 rfl, ⟨(), rfl⟩⟩
  have hbegun : ∀ ir ir' : IdempotencyResult,
      (upsertCall row ir).begun = .ok ir' ↔ (.ok ir : Answer) = .ok ir' := by
    intro ir ir'
    simp [upsertCall]
  have hfirst : ∀ o, .request 0 (.execute o) ∈ sharedCallRun result →
      o = .rpc "upsert_document" (callOutcome 0 0 usedConn upsertCaller (upsertCall row proceed)
        upsertBody upsertDocument) 3 := by
    intro o ho
    simp only [sharedCallRun, Event.reply, List.mem_cons, Event.request.injEq, Act.execute.injEq,
      reduceCtorEq, and_false, false_or, List.not_mem_nil, or_false, true_and] at ho
    rw [hresult]
    exact ho
  have hlater : ∀ o, .request 1 (.execute o) ∉ sharedCallRun result := by
    intro o ho
    simp only [sharedCallRun, Event.reply, List.mem_cons, Event.request.injEq, reduceCtorEq,
      and_false, List.not_mem_nil, or_false, Nat.one_ne_zero, false_and] at ho
  have hdone : CompletedBefore sharedCall (sharedCallRun result) 0 1 :=
    ⟨(sharedCallRun result).take 5, 4, (sharedCallRun result).drop 6, _, _, _, rfl, rfl, rfl, rfl,
      rfl⟩
  -- How the row is judged depends on whether the call succeeded.
  cases result with
  | error | ok =>
    exact ⟨_, rfl, ⟨rfl, rfl, rfl, hpass proceed, ⟨_, rfl, hbegun _⟩, hfirst⟩,
      ⟨rfl, rfl, rfl, hpass _, ⟨_, rfl, hbegun _⟩, fun o ho => absurd ho (hlater o)⟩, hdone, rfl⟩

/-- The reply to the first request, if the column of the procedure holds `v`. -/
def firstReply (v : Value) : HttpReply :=
  (handleRPCCall upsertRegistry 0 0 usedConn ⟨"", "", 0⟩ upsertCaller
    (upsertCall (.ok (some v)) proceed)).reply.http

/-- The reply to the second one. -/
def laterReply (v : Value) : HttpReply :=
  (handleRPCCall upsertRegistry 0 0 usedConn ⟨"", "", 0⟩ upsertCaller
    (upsertCall (.ok (some v)) (storedUpsert (.ok (some v))))).reply.http

/-- In the run in which the procedure returns `v`, the two replies are the same or
    not. -/
def ReplayOf (v : Value) (same : Prop) : Prop :=
  ∃ s, run (step sharedCall) initial (sharedCallRun (.ok (some v))) = some s ∧
    CompletedBefore sharedCall (sharedCallRun (.ok (some v))) 0 1 ∧
    (((laterReply v).status = (firstReply v).status ∧
      SameDocument (firstReply v).body (laterReply v).body) ↔ same)

/-- A procedure that returns `true` is replayed with another document. One that
    returns a float that is not a number is replayed with the same: both bodies are
    empty. -/
theorem replayed_same_without_form :
    ReplayOf (.bool true) False ∧ ReplayOf (.formless .float) True := by
  have hreplay : ∀ v : Value, v.valid = true ∨ v.marshal = none →
      Allowed (step sharedCall) (NoExpiry sharedCall (0, "k")) initial
        (sharedCallRun (.ok (some v))) →
      ReplayOf v (v.marshal = none) := by
    intro v hv hexp
    rcases upsert_served (.ok (some v)) (.ok (some v)) rfl with
      ⟨s, hrun, hfirst, hlater, hdone, hbegun⟩
    have hdb : ∀ a, (s.reqs 1).begun = some a →
        ¬ DatabaseFailed (sharedCallRun (.ok (some v))) 1 a := by
      rintro a ha ⟨e, he, _⟩
      rw [hbegun, he] at ha
      cases ha
    have houtcome : callOutcome 0 0 usedConn upsertCaller (upsertCall (.ok (some v)) proceed)
        upsertBody upsertDocument = .ok (some v) := rfl
    have hsame := rpc_replay_same_iff sharedCall upsertRegistry 0 0 (0, "k") _ s hrun hexp 0 1 _ _
      ⟨"", "", 0⟩ ⟨"", "", 0⟩ _ _ _ _ _ _ hfirst hlater rfl rfl rfl hdone hdb ?_
    · refine ⟨s, hrun, hdone, hsame.trans ?_⟩
      rw [houtcome]
      constructor
      · rintro ⟨w, hw, hnone⟩
        cases hw
        exact hnone
      · exact fun hnone => ⟨v, rfl, hnone⟩
    · intro w hw
      rw [houtcome] at hw
      cases hw
      exact hv
  have htrue := hreplay (.bool true) (.inl rfl) (by decide)
  have hnan := hreplay (.formless .float) (.inr rfl) (by decide)
  have hform : ((Value.bool true).marshal = none) = False :=
    eq_false (Option.some_ne_none _)
  have hformless : ((Value.formless .float).marshal = none) = True := eq_true rfl
  exact ⟨hform ▸ htrue, hformless ▸ hnan⟩

/-- A procedure that violates a unique constraint is answered 409, and a request
    with the same key and body that comes later is answered 500. -/
theorem conflict_replayed_as_internal :
    ∃ s, run (step sharedCall) initial
        (sharedCallRun (.error (.pg ⟨"23505", "duplicate key"⟩))) = some s ∧
      RpcServed sharedCall upsertRegistry 0 0
        (sharedCallRun (.error (.pg ⟨"23505", "duplicate key"⟩))) s 1
        (upsertCall (.error (.pg ⟨"23505", "duplicate key"⟩))
          (storedUpsert (.error (.pg ⟨"23505", "duplicate key"⟩)))) upsertCaller usedConn upsertBody
        upsertDocument ∧
      CompletedBefore sharedCall (sharedCallRun (.error (.pg ⟨"23505", "duplicate key"⟩))) 0 1 ∧
      (handleRPCCall upsertRegistry 0 0 usedConn ⟨"", "", 0⟩ upsertCaller
        (upsertCall (.error (.pg ⟨"23505", "duplicate key"⟩)) proceed)).reply.http.status = 409 ∧
      (handleRPCCall upsertRegistry 0 0 usedConn ⟨"", "", 0⟩ upsertCaller
        (upsertCall (.error (.pg ⟨"23505", "duplicate key"⟩))
          (storedUpsert (.error (.pg ⟨"23505", "duplicate key"⟩))))).reply.http.status = 500 := by
  rcases upsert_served (.error (.pg ⟨"23505", "duplicate key"⟩)) _ rfl with
    ⟨s, hrun, _, hlater, hdone, _⟩
  exact ⟨s, hrun, hlater, hdone, rfl, rfl⟩

end CoopDB
