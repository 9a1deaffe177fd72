import CoopDB.Theory.Caller
import CoopDB.Theory.Idempotency.Replay

/-!
# A Replay on the SQL Endpoint

`handleSQLExecute` builds the reply it sends and the one it stores at each of
its three exits after `Execute`: an error, a response over the limit, and a
success. The two have the same status, and their bodies differ by the newline
that the encoder of `WriteProblem` adds.

`SqlServed` connects the two models of a request. The gateway has its phases
and its calls of the store, and takes the execution as one step with some
outcome. The handler is a function of what the store answers. A request of the
gateway is served by the handler if the store's answer is the handler's, and the
outcome the one of its `Execute`.

## Main definitions

* `SqlServed`: The handler behind a request of the gateway.
* `UpToNewline`: Two bodies that differ by a newline at the end.

## Theorems

* `handleSQLExecute_executed`, `handleSQLExecute_replayed`: The two replies.
* `sql_replay_eq_original`: A request that comes after the completion, before the row
  expires, is answered as the first one was, up to a newline.
* `replay_of_failed_statement`: A run with a replay.
-/

namespace CoopDB

open Transition (run Allowed)

/-- The bodies are equal, or one of them is the other one and a newline. -/
def UpToNewline (a b : Bytes) : Prop :=
  a = b ∨ a = b ++ utf8 "\n" ∨ b = a ++ utf8 "\n"

section Handler

variable (q : PgQuery) (validator : ValidatorConfig) (executor : ExecutorConfig) (limit : Int)
  (c c' : Conn) (x x' : SqlRequest)

/-- A request that executes answers with the tail of the handler. It has passed
    the checks in front of the store. -/
theorem handleSQLExecute_executed {done : Executed}
    (h : (handleSQLExecute q validator executor limit c x).executed = some done) :
    (handleSQLExecute q validator executor limit c x).reply = (finishSQL limit done.outcome).1 ∧
      (∃ u, x.readBody = .ok u) ∧
      ∃ req res, x.decoded = .ok req ∧ validate q validator req.sql req.params = .ok res := by
  unfold handleSQLExecute at h ⊢
  cases hread : x.readBody with
  | error => simp only [hread, reduceCtorEq] at h
  | ok u =>
    cases hdec : x.decoded with
    | error => simp only [hread, hdec, reduceCtorEq] at h
    | ok req =>
      cases hval : validate q validator req.sql req.params with
      | error => simp only [hread, hdec, hval, reduceCtorEq] at h
      | ok res =>
        simp only [hread, hdec, hval] at h ⊢
        refine ⟨?_, ⟨u, trivial⟩, req, res, rfl, hval⟩
        by_cases hkey : x.idemKey = ""
        · simp only [if_pos hkey, Option.some.injEq] at h ⊢
          rw [h]
        · simp only [if_neg hkey] at h ⊢
          -- Of the store's answers only the one that tells it to executes.
          split at h
          · simp only [reduceCtorEq] at h
          · simp only [reduceCtorEq] at h
          · split at h
            · simp only [reduceCtorEq] at h
            · rename_i hreplay
              simp only [if_neg hreplay, Option.some.injEq] at h ⊢
              rw [h]

/-- A request that replays answers with what the store gave it, without
    executing. -/
theorem handleSQLExecute_replayed {ir : IdempotencyResult} {u : Unit} {req : SqlExecuteRequest}
    {res : Result} (hread : x.readBody = .ok u) (hdec : x.decoded = .ok req)
    (hval : validate q validator req.sql req.params = .ok res) (hkey : x.idemKey ≠ "")
    (hbegun : x.begun = .ok ir) (hreplay : ir.replay = true) :
    handleSQLExecute q validator executor limit c x =
      { reply := { status := ir.statusCode, contentType := "application/json", replayed := true
                   body := ir.body }
        completion := none, executed := none } := by
  unfold handleSQLExecute
  simp only [hread, hdec, hval, if_neg hkey, hbegun, hreplay, if_true]

end Handler

/-- What is sent and what is stored have the same status, and the same body up
    to a newline. -/
theorem finishSQL_stored (limit : Int) (result : Except Failure Response) :
    (finishSQL limit result).1.status = (finishSQL limit result).2.status ∧
      UpToNewline (finishSQL limit result).1.body (finishSQL limit result).2.body := by
  rw [finishSQL_reply]
  unfold Completion.reply UpToNewline
  split
  · exact ⟨rfl, .inl rfl⟩
  · exact ⟨rfl, .inr (.inl rfl)⟩

section Replay

variable (d : Deployment) (q : PgQuery) (validator : ValidatorConfig) (executor : ExecutorConfig)

/-- The request of the gateway is one to the SQL endpoint, and it is `x` that
    the handler serves on the connection `c`: the store answers the one what the
    handler goes on with, and the outcome of the execution is the one
    `Execute` returned. -/
structure SqlServed (es : List Event) (s : Gateway) (r : ReqId) (x : SqlRequest) (c : Conn) :
    Prop where
  endpoint : (d.requests r).endpoint = .sqlExecute
  workspace : (d.requests r).workspaceID = x.workspaceID
  key : (d.requests r).idempotencyKey = x.idemKey
  begun : (s.reqs r).begun = some x.begun
  executed : ∀ o, .request r (.execute o) ∈ es → ∃ done,
    (handleSQLExecute q validator executor d.maxResponseBodyBytes c x).executed = some done ∧
      o = .sql done.outcome

/-- The first request executed, with any outcome, and its `Complete` returned
    without an error. A request with the same key and body that arrives after
    that, before the row expires, is answered without executing, with the status
    of the first reply and the same body up to a newline. Only a failing call of
    its own to the database keeps it from that. -/
theorem sql_replay_eq_original (k : Slot) (es : List Event) (s : Gateway)
    (hrun : run (step d) initial es = some s)
    (hexp : Allowed (step d) (NoExpiry d k) initial es) (r r' : ReqId) (x x' : SqlRequest)
    (c c' : Conn) (hfirst : SqlServed d q validator executor es s r x c)
    (hlater : SqlServed d q validator executor es s r' x' c')
    (hslot : d.slot r = some k) (hslot' : d.slot r' = some k)
    (hbody : x'.readBody = x.readBody ∧ x'.decoded = x.decoded ∧
      (d.requests r').requestHash = (d.requests r).requestHash)
    (hdone : CompletedBefore d es r r') (hdb : ¬ DatabaseFailed es r' x'.begun) :
    (∀ o, .request r' (.execute o) ∉ es) ∧
    (handleSQLExecute q validator executor d.maxResponseBodyBytes c' x').executed = none ∧
    (handleSQLExecute q validator executor d.maxResponseBodyBytes c' x').reply.status =
      (handleSQLExecute q validator executor d.maxResponseBodyBytes c x).reply.status ∧
    UpToNewline (handleSQLExecute q validator executor d.maxResponseBodyBytes c x).reply.body
      (handleSQLExecute q validator executor d.maxResponseBodyBytes c' x').reply.body := by
  rcases replayed_after_complete d k es s hrun hexp hslot hslot' hbody.2.2 hdone
    hlater.begun hdb with ⟨_, hnever, o, hmem, hanswer⟩
  -- The first request passed its checks, and the later one has the same body.
  rcases hfirst.executed o hmem with ⟨done, hexec, rfl⟩
  rcases handleSQLExecute_executed q validator executor d.maxResponseBodyBytes c x hexec with
    ⟨hreply, ⟨u, hread⟩, req, res, hdec, hval⟩
  have hkey : x'.idemKey ≠ "" := by
    rw [← hlater.key]
    exact idempotencyKey_ne_empty hslot'
  have hreplayed := handleSQLExecute_replayed q validator executor d.maxResponseBodyBytes c' x'
    (hbody.1.trans hread) (hbody.2.1.trans hdec) hval hkey hanswer rfl
  have hstored := finishSQL_stored d.maxResponseBodyBytes done.outcome
  rw [hreplayed, hreply]
  exact ⟨hnever, rfl, hstored.1.symm, hstored.2⟩

end Replay

/-- A select that the database fails, as a request with the key of
    `sharedKey`. -/
def failingSelect (begun : Answer) : SqlRequest :=
  { workspaceID := "w", pgRole := "dbuser", readBody := .ok ()
    decoded := .ok { sql := "SELECT 1", params := [] }, idemKey := "k", begun := begun
    db := { acceptingScript with query := .error (.other "boom") } }

/-- What is stored for it. -/
def boomResult : IdempotencyResult :=
  { replay := true, statusCode := 500, body := utf8 (mapError (some (.other "boom"))).marshal }

/-- In the run of `sharedKey` request 0 executes and fails, and request 2 comes
    after its completion. It answers 500 with the same problem. -/
theorem replay_of_failed_statement :
    ∃ s, run (step sharedKey) initial sharedKeyRun = some s ∧
      CompletedBefore sharedKey sharedKeyRun 0 2 ∧
      (handleSQLExecute selectQuery ⟨262144, 1000⟩ ⟨5000000000, 5000000000, 0⟩ 0 usedConn
        (failingSelect (.ok boomResult))).reply.status = 500 ∧
      UpToNewline
        (handleSQLExecute selectQuery ⟨262144, 1000⟩ ⟨5000000000, 5000000000, 0⟩ 0 usedConn
          (failingSelect (.ok proceed))).reply.body
        (handleSQLExecute selectQuery ⟨262144, 1000⟩ ⟨5000000000, 5000000000, 0⟩ 0 usedConn
          (failingSelect (.ok boomResult))).reply.body := by
  have hdone : CompletedBefore sharedKey sharedKeyRun 0 2 :=
    ⟨sharedKeyRun.take 15, 11, sharedKeyRun.drop 16, _, _, _, rfl, rfl, rfl, rfl, rfl⟩
  refine ⟨_, rfl, hdone, ?_⟩
  have h := sql_replay_eq_original sharedKey selectQuery ⟨262144, 1000⟩ ⟨5000000000, 5000000000, 0⟩
    (0, "k") sharedKeyRun _ rfl (by decide) 0 2 (failingSelect (.ok proceed))
    (failingSelect (.ok boomResult)) usedConn usedConn ⟨rfl, rfl, rfl, rfl, ?_⟩
    ⟨rfl, rfl, rfl, rfl, ?_⟩ rfl rfl ⟨rfl, rfl, rfl⟩ hdone ?_
  · exact ⟨h.2.2.1, h.2.2.2⟩
  · intro o ho
    simp only [sharedKeyRun, Event.reply, List.mem_cons, Event.request.injEq, Act.execute.injEq,
      reduceCtorEq, and_false, false_or, List.not_mem_nil, or_false, true_and] at ho
    rw [ho]
    exact ⟨_, rfl, rfl⟩
  · intro o ho
    simp [sharedKeyRun, Event.reply] at ho
  · rintro ⟨e, he, _⟩
    cases he

end CoopDB
