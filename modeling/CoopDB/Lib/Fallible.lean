import Mathlib.Logic.Basic

/-!
# Chains of Calls That Can Fail

A function that makes one fallible call after another and returns the first
error is a `do` block in `Except`. The lemmas here take a successful result of
such a block apart into the success of each call, in order, so that a proof
about the block never looks at the error branches. An error of the block is the
error of one call, and all calls before it succeed.

## Main definitions

* `ensure`, `require`, `raise`: Fail unless all is well.

## Theorems

* `bind_eq_ok`, `mapError_eq_ok`, `ensure_eq_ok`, `require_eq_ok`,
  `raise_eq_ok`: When each step succeeds.
* `bind_eq_error`, `mapError_eq_error`: When a step fails.
-/

namespace Fallible

variable {δ ε α β : Type}

/-- Fail with `e` unless the test holds. -/
def ensure (test : Bool) (e : ε) : Except ε Unit :=
  if test then .ok () else .error e

/-- The value, or the error `e`. -/
def require (value : Option α) (e : ε) : Except ε α :=
  match value with
  | some a => .ok a
  | none => .error e

/-- Fail with the error, if there is one. -/
def raise (failure : Option δ) (wrap : δ → ε) : Except ε Unit :=
  match failure with
  | none => .ok ()
  | some e => .error (wrap e)

/-- A chain succeeds when its first call does and the rest does on its
    value. -/
theorem bind_eq_ok (x : Except ε α) (f : α → Except ε β) (b : β) :
    (x >>= f) = .ok b ↔ ∃ a, x = .ok a ∧ f a = .ok b := by
  cases x with
  | error e =>
    have herr : (Except.error e >>= f) = Except.error e := rfl
    simp [herr]
  | ok => simp only [Except.ok.injEq, exists_eq_left']; exact Iff.rfl

theorem mapError_eq_ok (f : δ → ε) (x : Except δ α) (a : α) :
    x.mapError f = .ok a ↔ x = .ok a := by
  cases x with
  | error e =>
    have herr : (Except.error e : Except δ α).mapError f = .error (f e) := rfl
    simp [herr]
  | ok b =>
    have hok : (Except.ok b : Except δ α).mapError f = .ok b := rfl
    simp [hok]

/-- A chain fails where its first call does, or where the rest does on its value. -/
theorem bind_eq_error (x : Except ε α) (f : α → Except ε β) (e : ε) :
    (x >>= f) = .error e ↔ x = .error e ∨ ∃ a, x = .ok a ∧ f a = .error e := by
  cases x with
  | error e' =>
    have herr : (Except.error e' >>= f) = Except.error e' := rfl
    simp [herr]
  | ok =>
    simp only [reduceCtorEq, Except.ok.injEq, exists_eq_left', false_or]
    exact Iff.rfl

theorem mapError_eq_error (f : δ → ε) (x : Except δ α) (e : ε) :
    x.mapError f = .error e ↔ ∃ d, x = .error d ∧ f d = e := by
  cases x with
  | error d =>
    have herr : (Except.error d : Except δ α).mapError f = .error (f d) := rfl
    simp [herr]
  | ok b =>
    have hok : (Except.ok b : Except δ α).mapError f = .ok b := rfl
    simp [hok]

theorem ensure_eq_ok (test : Bool) (e : ε) (u : Unit) :
    ensure test e = .ok u ↔ test = true := by
  cases test with
  | false => simp [ensure]
  | true => simp only [ensure, if_true]

theorem require_eq_ok (value : Option α) (e : ε) (a : α) :
    require value e = .ok a ↔ value = some a := by
  cases value with
  | none | some => simp [require]

theorem raise_eq_ok (failure : Option δ) (wrap : δ → ε) (u : Unit) :
    raise failure wrap = .ok u ↔ failure = none := by
  cases failure with
  | none => simp only [raise]
  | some => simp [raise]

end Fallible
