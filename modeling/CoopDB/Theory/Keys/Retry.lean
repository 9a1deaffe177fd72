import CoopDB.Core.KeyCall
import CoopDB.Lib.Transition
import CoopDB.Theory.Client
import CoopDB.Theory.Keys.Operations

/-!
# Retrying a Key Operation

A call of the client posts its request up to five times, and the comment in
`_post` says that the `Idempotency-Key` keeps the retries from repeating a
write. For the two key operations nothing on the server does: their handlers do
not look at the header, and a second request of the call is a second rotation or
a second key.

So the operation is done once only if the client does not retry a request that
was carried out, and no request it has given up on is carried out late. Requests that
are lost on the way there do no harm.

## Main definitions

* `LostAnswer`: Answers the client takes for a failure worth a retry.
* `HeardInTime`: What is carried out is waited for, and its answer arrives.
* `Repeatless`: The invariant: at most the current attempt was carried out.

## Theorems

* `afterAttempt_of_not_lost`: Any other answer ends the call.
* `repeatless_step`: The invariant is kept.
* `key_operation_once`: A call that hears in time inserts one row at most, and changes the
  expiry of the caller's key once at most.
* `lost_answer_rotates_twice`: A run in which a retried rotation inserts another row.
-/

namespace CoopDB

open Transition (run Allowed Always)

/-- No answer, a 429, a server error, or a success whose body is not JSON. -/
def LostAnswer (x : Python) : Transport → Prop
  | .failed _ => True
  | .reply r =>
    (r.status < 300 ∧ r.content.isEmpty = false ∧ ∃ e, r.json = .error (.decode e)) ∨
    ((r.status = 429 ∨ 500 ≤ r.status) ∧ r.Raises x)

/-- A request is handled only while the client waits for it, and where it was
    carried out its answer is not lost, unless there is no attempt left. -/
def HeardInTime (x : Python) (s : KeyCall) : KeyCallEvent → Prop
  | .handle i _ => i = s.index ∧ s.waiting = true
  | .answer t => s.index ∈ s.carried → s.index + 1 < Client.maxAttempts → ¬ LostAnswer x t
  | _ => True

/-- A transient error comes from a lost answer. -/
theorem lostAnswer_of_transient {x : Python} {t : Transport} {err : ApiError}
    (h : Client.attempt x t = .error (.api err)) (hkind : err.kind.transient = true) :
    LostAnswer x t := by
  cases t with
  | failed => trivial
  | reply r =>
    simp only [Client.attempt] at h
    by_cases hlt : r.status < 300
    · rcases (Client.handle_below_300 x hlt err).mp h with ⟨hcontent, e, he, _⟩
      exact .inl ⟨hlt, hcontent, e, he⟩
    · simp only [Client.handle, if_neg hlt, Except.error.injEq] at h
      rcases Client.errorOf_eq_api h with ⟨hraises, _, _, hstatus⟩
      exact .inr ⟨hstatus hkind, hraises⟩

/-- Any other answer ends the call, and so does the last attempt. -/
theorem afterAttempt_of_not_lost {x : Python} {index : Nat} {t : Transport}
    (h : index + 1 < Client.maxAttempts → ¬ LostAnswer x t) :
    ∃ r, Client.afterAttempt index (Client.attempt x t) = .done r := by
  unfold Client.afterAttempt
  split
  case h_1 err herr =>
    split
    case isTrue hagain =>
      exact absurd (lostAnswer_of_transient herr hagain.1) (h hagain.2)
    case isFalse => exact ⟨_, rfl⟩
  case h_2 => exact ⟨_, rfl⟩

/-- The invariant of a call: at most the current attempt was carried out, and
    then the client waits for it or has its result. -/
structure Repeatless (s : KeyCall) : Prop where
  pending : s.waiting = true → s.result = none
  current : s.carried = [] ∨ s.carried = [s.index] ∧ (s.waiting = true ∨ s.result ≠ none)
  handled : ∀ i ∈ s.carried, i ∈ s.handled
  inserted : s.inserted.length ≤ s.carried.length
  expiries : s.expiries ≤ s.carried.length

theorem repeatless_start (keys : Keys) : Repeatless (KeyCall.start keys) where
  pending h := absurd h Bool.false_ne_true
  current := .inl rfl
  handled _ h := absurd h List.not_mem_nil
  inserted := Nat.le_refl 0
  expiries := Nat.le_refl 0

section

variable (c : KeyService)

theorem newRows_length (mint : Except String Minted) (keys keys' : Keys) :
    (newRows mint keys keys').length ≤ 1 := by
  unfold newRows
  split
  · exact Nat.zero_le 1
  · split
    · exact Nat.le_refl 1
    · exact Nat.zero_le 1

/-- Handling the request the client waits for. -/
theorem repeatless_serve {s s' : KeyCall} (h : Repeatless s) {handling : Handling}
    (hwaiting : s.waiting = true) (hfirst : s.index ∉ s.handled)
    (hs : s.serve c s.index handling = some s') : Repeatless s' := by
  -- It has not been carried out before, so nothing has.
  have hnone : s.carried = [] := by
    rcases h.current with hnil | ⟨hone, _⟩
    · exact hnil
    · exact absurd (h.handled s.index (by rw [hone]; exact List.mem_singleton_self _)) hfirst
  have hinserted : s.inserted.length = 0 := by
    have := h.inserted
    rw [hnone] at this
    exact Nat.le_zero.mp this
  have hexpiries : s.expiries = 0 := by
    have := h.expiries
    rw [hnone] at this
    exact Nat.le_zero.mp this
  rcases Option.map_eq_some_iff.mp hs with ⟨keys, _, rfl⟩
  have hrows := newRows_length handling.mint s.keys keys
  cases hquiet : (newRows handling.mint s.keys keys).isEmpty &&
      !expiryChanged c.caller s.keys keys with
  | true =>
    simp only [Bool.and_eq_true, Bool.not_eq_true', List.isEmpty_iff] at hquiet
    simp only [hquiet, List.isEmpty_nil, Bool.not_false, Bool.and_self, if_true,
      Bool.false_eq_true, if_false, List.append_nil, Nat.add_zero]
    refine ⟨h.pending, h.current, fun i hi => ?_, h.inserted, h.expiries⟩
    exact List.mem_append_left _ (h.handled i hi)
  | false =>
    simp only [hquiet, Bool.false_eq_true, if_false, hnone, List.nil_append]
    refine ⟨h.pending, .inr ⟨rfl, .inl hwaiting⟩, fun i hi => ?_, ?_, ?_⟩
    · exact List.mem_append_right _ hi
    · rw [List.length_append, hinserted, List.length_singleton]
      omega
    · change s.expiries + (if expiryChanged c.caller s.keys keys then 1 else 0) ≤ 1
      rw [hexpiries]
      split <;> omega

/-- One step of a call that hears in time. -/
theorem repeatless_step (s : KeyCall) (e : KeyCallEvent) (s' : KeyCall) (h : Repeatless s)
    (hg : HeardInTime c.python s e) (hs : s.step c e = some s') : Repeatless s' := by
  cases e with
  | post =>
    simp only [KeyCall.step, Option.ite_none_right_eq_some, Option.some.injEq,
      Option.isNone_iff_eq_none] at hs
    rcases hs with ⟨⟨hidle, hopen⟩, rfl⟩
    refine ⟨fun _ => hopen, .inl ?_, h.handled, h.inserted, h.expiries⟩
    rcases h.current with hnil | ⟨_, hw | hr⟩
    · exact hnil
    · rw [hidle] at hw
      exact absurd hw Bool.false_ne_true
    · exact absurd hopen hr
  | handle i handling =>
    simp only [KeyCall.step, Option.ite_none_right_eq_some] at hs
    rcases hs with ⟨⟨_, hfirst⟩, hserve⟩
    rcases hg with ⟨rfl, hwaiting⟩
    exact repeatless_serve c h hwaiting hfirst hserve
  | answer t =>
    simp only [KeyCall.step, Option.ite_none_right_eq_some, Option.some.injEq] at hs
    rcases hs with ⟨⟨hwaiting, _⟩, rfl⟩
    unfold KeyCall.answered
    split
    case h_1 r hdone =>
      refine ⟨fun hw => absurd hw Bool.false_ne_true, ?_, h.handled, h.inserted, h.expiries⟩
      rcases h.current with hnil | ⟨hone, _⟩
      · exact .inl hnil
      · exact .inr ⟨hone, .inr (Option.some_ne_none r)⟩
    case h_2 hagain =>
      -- The client goes on, so this attempt was not carried out.
      refine ⟨fun hw => absurd hw Bool.false_ne_true, .inl ?_, h.handled, h.inserted, h.expiries⟩
      rcases h.current with hnil | ⟨hone, _⟩
      · exact hnil
      · have hmem : s.index ∈ s.carried := by
          rw [hone]
          exact List.mem_singleton_self _
        rcases afterAttempt_of_not_lost (hg hmem) with ⟨r, hr⟩
        rw [hr] at hagain
        cases hagain
  | elsewhere =>
    simp only [KeyCall.step, Option.some.injEq] at hs
    rw [← hs]
    exact ⟨h.pending, h.current, h.handled, h.inserted, h.expiries⟩

/-- A call that hears in time inserts at most one row and changes the expiry of
    the caller's key at most once, whatever is lost and whatever else happens to
    the table. -/
theorem key_operation_once (keys : Keys) (es : List KeyCallEvent)
    (h : Allowed (KeyCall.step c) (HeardInTime c.python) (KeyCall.start keys) es) :
    Always (KeyCall.step c) (fun s => s.inserted.length ≤ 1 ∧ s.expiries ≤ 1)
      (KeyCall.start keys) es := by
  refine Transition.always_mono (fun s hs => ?_) _
    (Transition.always_of_invariant Repeatless
      (repeatless_step c) _ (repeatless_start keys) h)
  have hlen : s.carried.length ≤ 1 := by
    rcases hs.current with hnil | ⟨hone, _⟩
    · rw [hnil]
      exact Nat.zero_le 1
    · rw [hone]
      exact Nat.le_refl 1
  exact ⟨Nat.le_trans hs.inserted hlen, Nat.le_trans hs.expiries hlen⟩

end

/-- The `dbadmin` key of the table rotates itself. -/
def rotateService : KeyService :=
  { python := plainPython, externals := letterExternals, roles := migratedRoles, overlap := 100
    caller := 1, command := .rotate }

/-- A request that is handled at this time, with every call accepted. -/
def acceptedAt (now : Time) (id : Uuid) : Handling :=
  { now := now
    mint := .ok { id := id, keyID := "new", fullToken := "token", secretHash := "hash" }
    create := { begin := none, roleExists := none, hasRole := none, insert := none, commit := none }
    rotate := { begin := none, select := none, insert := none, update := none, commit := none } }

/-- An answer with the new key. -/
def rotatedResponse : Transport :=
  .reply { status := 200, content := [123, 125], text := "", json := .ok (.object [])
           retryAfter := none, replayed := none }

/-- The first request is lost, the second is carried out and answered: one row
    is inserted. -/
theorem lost_request_rotates_once :
    (∃ s, run (KeyCall.step rotateService) (KeyCall.start adminKeys)
        [.post, .answer (.failed "timed out"), .post, .handle 1 (acceptedAt 20 3),
          .answer rotatedResponse] = some s ∧ s.inserted.length = 1 ∧ s.expiries = 1) ∧
      Always (KeyCall.step rotateService) (fun s => s.inserted.length ≤ 1 ∧ s.expiries ≤ 1)
        (KeyCall.start adminKeys)
        [.post, .answer (.failed "timed out"), .post, .handle 1 (acceptedAt 20 3),
          .answer rotatedResponse] := by
  refine ⟨⟨_, rfl, rfl, rfl⟩, key_operation_once rotateService adminKeys _ ?_⟩
  refine ⟨trivial, fun s₁ h₁ => ?_⟩
  cases h₁
  refine ⟨fun h => absurd h List.not_mem_nil, fun s₂ h₂ => ?_⟩
  cases h₂
  refine ⟨trivial, fun s₃ h₃ => ?_⟩
  cases h₃
  refine ⟨⟨rfl, rfl⟩, fun s₄ h₄ => ⟨fun _ _ => ?_, fun _ _ => trivial⟩⟩
  rintro (⟨_, _, e, he⟩ | ⟨hstatus, _⟩)
  · cases he
  · exact absurd hstatus (by decide)

/-- The first request is carried out and its answer lost. The retry rotates the
    key a second time and schedules its expiry anew. -/
theorem lost_answer_rotates_twice :
    ∃ s, run (KeyCall.step rotateService) (KeyCall.start adminKeys)
        [.post, .handle 0 (acceptedAt 10 3), .answer (.failed "timed out"), .post,
          .handle 1 (acceptedAt 20 4), .answer rotatedResponse] = some s ∧
      s.inserted.length = 2 ∧ s.expiries = 2 ∧ ¬ (s.inserted.length ≤ 1 ∧ s.expiries ≤ 1) :=
  ⟨_, rfl, rfl, rfl, fun h => absurd h.1 (by decide)⟩

end CoopDB
