import CoopDB.Core.Offline

/-!
# What a Call of the Client Comes To

The retry loop is transparent: what a call returns or raises is what its last
attempt came to. So the error a caller sees is read off the last answer of the
transport, and there are only a few ways to get one.

## Main definitions

* `ApiError.Permanent`: The error of a 4xx reply other than 429.
* `HttpResponse.Raises`: An error reply raises one of the package's errors.

## Theorems

* `withRetry_getLast`: The outcome of a call is that of its last attempt.
* `sender_cases`: What the queue's sender does with the last answer.
* `errorOf_eq_api`: The kind and status of an error reply.
* `handle_below_300`: When a reply below 300 raises an error of the package.
* `attempt_ok_status`: Only a reply below 300 is a success.
-/

namespace CoopDB

/-- A client error that is not about the rate. -/
def ApiError.Permanent (e : ApiError) : Prop :=
  ∃ status, e.status = some status ∧ 400 ≤ status ∧ status < 500 ∧ status ≠ 429

/-- The error document is an object or no JSON at all, and the delay of a 429
    is a number. Other error replies raise exceptions of Python. -/
def HttpResponse.Raises (x : Python) (r : HttpResponse) : Prop :=
  (Client.problemOf r).isSome ∧ (r.status = 429 → (Client.retryAfter x r).isSome)

namespace Client

/-- An attempt that ends the loop ends it with its own outcome. -/
theorem afterAttempt_eq_done {α : Type} {index : Nat} {o r : Except Raised α}
    (h : afterAttempt index o = .done r) : r = o := by
  unfold afterAttempt at h
  split at h
  case h_1 e =>
    split at h
    case isTrue => cases h
    case isFalse =>
      simp only [Next.done.injEq] at h
      exact h.symm
  case h_2 =>
    simp only [Next.done.injEq] at h
    exact h.symm

/-- The outcome of a call is that of its last attempt. -/
theorem withRetry_getLast {α : Type} (os : List (Except Raised α)) :
    ∀ (index : Nat) (r : Except Raised α), withRetry index os = some r → os.getLast? = some r := by
  induction os with
  | nil =>
    intro index r h
    cases h
  | cons o rest ih =>
    intro index r h
    unfold withRetry at h
    split at h
    case h_1 r' hdone =>
      split at h
      case isFalse => cases h
      case isTrue hempty =>
        rw [List.isEmpty_iff] at hempty
        rw [Option.some.injEq] at h
        rw [hempty, List.getLast?_singleton, ← h, afterAttempt_eq_done hdone]
    case h_2 =>
      rw [List.getLast?_cons, ih (index + 1) r h]
      rfl

theorem post_getLast {x : Python} {replies : List Transport} {r : Except Raised Fields}
    (h : post x replies = some r) : ∃ last, replies.getLast? = some last ∧ r = attempt x last := by
  have hlast := withRetry_getLast _ 0 r h
  rw [List.getLast?_map, Option.map_eq_some_iff] at hlast
  rcases hlast with ⟨last, hlast, hr⟩
  exact ⟨last, hlast, hr.symm⟩

/-- The sender raises what the last attempt raised. Where that attempt
    succeeded it returns, or fails to convert the result. -/
theorem sender_cases {x : Python} {replies : List Transport} {a : Except Raised Unit}
    (h : sender x replies = some a) :
    ∃ last, replies.getLast? = some last ∧
      ((∃ err, attempt x last = .error err ∧ a = .error err) ∨
        (∃ data, attempt x last = .ok data) ∧ (a = .ok () ∨ ∃ text, a = .error (.other text))) := by
  simp only [sender, execute, Option.map_map, Option.map_eq_some_iff, Function.comp_apply] at h
  rcases h with ⟨r, hpost, ha⟩
  rcases post_getLast hpost with ⟨last, hlast, hr⟩
  refine ⟨last, hlast, ?_⟩
  rw [← hr]
  cases r with
  | error err => exact .inl ⟨err, rfl, ha.symm⟩
  | ok data =>
    refine .inr ⟨⟨data, rfl⟩, ?_⟩
    cases hresult : executeResult x data with
    | some =>
      simp only [hresult, Except.map] at ha
      exact .inl ha.symm
    | none =>
      simp only [hresult, Except.map] at ha
      exact .inr ⟨_, ha.symm⟩

/-- An error of the package that a reply raises has the reply's status and is
    not a network error. The kinds that are retried belong to 429 and to 500 and
    above. -/
theorem errorOf_eq_api {x : Python} {r : HttpResponse} {e : ApiError}
    (h : errorOf x r = .api e) :
    r.Raises x ∧ e.status = some r.status ∧ e.kind ≠ .network ∧
      (e.kind.transient = true → r.status = 429 ∨ 500 ≤ r.status) := by
  unfold errorOf at h
  split at h
  case h_1 => cases h
  case h_2 problem hproblem =>
    have hsome : (problemOf r).isSome := by rw [hproblem]; rfl
    have hother : r.status ≠ 429 → r.Raises x := fun hne => ⟨hsome, fun h429 => absurd h429 hne⟩
    -- The kinds of the six branches, of which two are retried.
    dsimp only at h
    split_ifs at h with h₁ h₂ h₃ h₄ h₅
    · cases h
      exact ⟨hother (by omega), rfl, nofun, fun hk => absurd hk Bool.false_ne_true⟩
    · cases h
      exact ⟨hother (by omega), rfl, nofun, fun hk => absurd hk Bool.false_ne_true⟩
    · cases h
      exact ⟨hother (by omega), rfl, nofun, fun hk => absurd hk Bool.false_ne_true⟩
    · -- A 429 reads its header first.
      cases hdelay : retryAfter x r with
      | none =>
        rw [hdelay] at h
        cases h
      | some =>
        rw [hdelay] at h
        cases h
        refine ⟨⟨hsome, fun _ => ?_⟩, rfl, nofun, fun _ => .inl h₄⟩
        rw [hdelay]
        rfl
    · cases h
      exact ⟨hother h₄, rfl, nofun, fun _ => .inr h₅⟩
    · cases h
      exact ⟨hother h₄, rfl, nofun, fun hk => absurd hk Bool.false_ne_true⟩

/-- An error reply that can be read raises an error of the package. -/
theorem errorOf_of_raises (x : Python) (r : HttpResponse) (h : r.Raises x) :
    ∃ e, errorOf x r = .api e := by
  rcases Option.isSome_iff_exists.mp h.1 with ⟨problem, hproblem⟩
  simp only [errorOf, hproblem]
  split_ifs with h₁ h₂ h₃ h₄ h₅
  · exact ⟨_, rfl⟩
  · exact ⟨_, rfl⟩
  · exact ⟨_, rfl⟩
  · -- A 429 reads its header first.
    rcases Option.isSome_iff_exists.mp (h.2 h₄) with ⟨delay, hdelay⟩
    rw [hdelay]
    exact ⟨_, rfl⟩
  · exact ⟨_, rfl⟩
  · exact ⟨_, rfl⟩

/-- A success whose body is not JSON counts as a server error. -/
theorem handle_below_300 (x : Python) {r : HttpResponse} (hstatus : r.status < 300)
    (err : ApiError) :
    handle x r = .error (.api err) ↔
      r.content.isEmpty = false ∧ ∃ e, r.json = .error (.decode e) ∧
        err = ⟨.server, "invalid JSON in response: " ++ e, none, []⟩ := by
  simp only [handle, if_pos hstatus]
  cases hempty : r.content.isEmpty with
  | true => simp
  | false =>
    cases hjson : r.json with
    | error e =>
      cases e with
      | decode =>
        simp only [Bool.false_eq_true, if_false, Except.error.injEq, Raised.api.injEq,
          JsonError.decode.injEq, true_and, exists_eq_left']
        exact eq_comm
      | _ => simp
    | ok => simp

/-- Only a reply below 300 is a success. -/
theorem attempt_ok_status {x : Python} {t : Transport} {data : Fields}
    (h : attempt x t = .ok data) : ∃ r, t = .reply r ∧ r.status < 300 := by
  cases t with
  | failed => cases h
  | reply r =>
    refine ⟨r, rfl, ?_⟩
    by_contra hstatus
    simp only [attempt, handle, if_neg hstatus, reduceCtorEq] at h

end Client

/-- Conversions that take everything. -/
def plainPython : Python :=
  { float := fun _ => some 1, str := fun _ => "", int := fun _ => some 0, list := fun _ => some []
    truthy := fun _ => false, lstrip := id, upper := id }

end CoopDB
