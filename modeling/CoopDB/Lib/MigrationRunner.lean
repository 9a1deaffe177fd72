import Mathlib.Data.List.Basic

/-!
# A Runner of Numbered Migrations

A runner in the manner of golang-migrate. A source has migrations with increasing
versions, and the database has a record of the version it is at and whether the
migration to it was cut short. Without a record the database is at the nil
version.

`up` runs what comes behind the recorded version. Each migration is recorded as
dirty, run, and recorded as clean, so one that fails stays dirty. Nothing is run
on a dirty database, and nothing behind a version that is not of the source.
`force` changes the record only.

Reading the record and writing it do not fail here.

## Main definitions

* `readUp`, `runAll`, `up`, `force`: The runner.

## Theorems

* `up_behind`, `up_nil`, `up_missing`: The three cases of `up` on a clean database.
-/

namespace MigrationRunner

/-- The versions of a source. -/
structure Source where
  versions : List Nat
  increasing : versions.Pairwise (· < ·)

/-- The recorded version, `none` for the nil version, and the migrations that were
    run, which no operation reads. -/
structure State where
  version : Option Nat
  dirty : Bool
  ran : List Nat
  deriving DecidableEq

/-- The number of a recorded version. -/
def number : Option Nat → Int
  | none => -1
  | some v => v

/-- What can go wrong. -/
inductive Error
  | noChange
  | dirty (version : Int)
  | invalidVersion
  | noMigrations
  | notFound (version : Nat)
  | failed (version : Nat) (text : String)
  deriving DecidableEq

/-- The first migration. -/
def Source.first (src : Source) : Option Nat :=
  src.versions.head?

/-- The migration behind one of the source. -/
def Source.next (src : Source) (v : Nat) : Option Nat :=
  (src.versions.dropWhile (· ≠ v)).tail.head?

/-- The migrations from a version on, one after the other. -/
def readUp (src : Source) : Nat → Option Nat → List Nat
  | 0, _ => []
  | fuel + 1, version =>
    match version.elim src.first src.next with
    | none => []
    | some v => v :: readUp src fuel (some v)

/-- Run migrations, until one fails. -/
def runAll (body : Nat → Option String) : List Nat → State → Option Error × State
  | [], s => (none, s)
  | v :: rest, s =>
    let s := { s with version := some v, dirty := true, ran := s.ran ++ [v] }
    match body v with
    | some text => (some (.failed v text), s)
    | none => runAll body rest { s with dirty := false }

/-- Run everything behind the recorded version. -/
def up (src : Source) (body : Nat → Option String) (s : State) : Option Error × State :=
  if s.dirty then (some (.dirty (number s.version)), s)
  else
    match s.version.filter (· ∉ src.versions) with
    | some missing => (some (.notFound missing), s)
    | none =>
      match readUp src src.versions.length s.version with
      | [] => (some (if s.version.isNone then .noMigrations else .noChange), s)
      | pending => runAll body pending s

/-- Record a version as clean. -/
def force (v : Int) (s : State) : Option Error × State :=
  if v < -1 then (some .invalidVersion, s)
  else (none, { s with version := if v = -1 then none else some v.toNat, dirty := false })

variable {src : Source} {before after : List Nat} {v w : Nat}

theorem lt_of_versions (hsrc : src.versions = before ++ v :: after) :
    (∀ u ∈ before, u < v) ∧ ∀ u ∈ after, v < u := by
  have hincreasing := src.increasing
  rw [hsrc, List.pairwise_append, List.pairwise_cons] at hincreasing
  exact ⟨fun u hu => hincreasing.2.2 u hu v List.mem_cons_self, hincreasing.2.1.1⟩

theorem next_eq (hsrc : src.versions = before ++ v :: after) : src.next v = after.head? := by
  have hbefore : ∀ u ∈ before, decide (u ≠ v) = true := by
    intro u hu
    exact decide_eq_true (Nat.ne_of_lt ((lt_of_versions hsrc).1 u hu))
  rw [Source.next, hsrc, List.dropWhile_append_of_pos hbefore,
    List.dropWhile_cons_of_neg (by simp), List.tail_cons]

/-- What is read behind a version of the source is everything behind it. -/
theorem readUp_some (fuel : Nat) (hsrc : src.versions = before ++ v :: after)
    (hfuel : after.length ≤ fuel) : readUp src fuel (some v) = after := by
  induction after generalizing before v fuel with
  | nil =>
    cases fuel with
    | zero => rfl
    | succ => rw [readUp, Option.elim_some, next_eq hsrc, List.head?_nil]
  | cons w after ih =>
    cases fuel with
    | zero => exact absurd hfuel (Nat.not_succ_le_zero _)
    | succ fuel =>
      rw [readUp, Option.elim_some, next_eq hsrc, List.head?_cons]
      have hsrc' : src.versions = (before ++ [v]) ++ w :: after := by
        rw [hsrc, List.append_assoc, List.singleton_append]
      simp only [ih fuel hsrc' (Nat.le_of_succ_le_succ hfuel)]

variable (src) (body : Nat → Option String)

/-- From the nil version on everything is read. -/
theorem readUp_none : readUp src src.versions.length none = src.versions := by
  cases hversions : src.versions with
  | nil => rfl
  | cons v after =>
    have hsrc : src.versions = [] ++ v :: after := hversions
    have hrest := readUp_some after.length hsrc (Nat.le_refl _)
    rw [List.length_cons, readUp, Option.elim_none, Source.first, hversions, List.head?_cons]
    simp only [hrest]

/-- Migrations that all succeed are all run, and the last one is recorded. -/
theorem runAll_eq {pending : List Nat} (s : State) (hbody : ∀ v ∈ pending, body v = none)
    (hdirty : s.dirty = false) :
    runAll body pending s =
      (none, ⟨pending.getLast?.or s.version, false, s.ran ++ pending⟩) := by
  induction pending generalizing s with
  | nil => rw [runAll, List.getLast?_nil, Option.none_or, List.append_nil, ← hdirty]
  | cons v rest ih =>
    simp only [runAll, hbody v List.mem_cons_self]
    rw [ih _ (fun u hu => hbody u (List.mem_cons_of_mem v hu)) rfl]
    simp only [List.append_assoc, List.singleton_append]
    cases hlast : rest.getLast? with
    | none =>
      rw [List.getLast?_eq_none_iff.mp hlast]
      rfl
    | some => rw [List.getLast?_cons, hlast, Option.some_or, Option.getD_some, Option.some_or]

/-- On a clean database at a version of the source, what is behind it is run. -/
theorem up_behind (s : State) (hsrc : src.versions = before ++ v :: w :: after)
    (hbody : ∀ u ∈ w :: after, body u = none) (hversion : s.version = some v)
    (hdirty : s.dirty = false) :
    up src body s = (none, ⟨(w :: after).getLast?, false, s.ran ++ w :: after⟩) := by
  have hmem : v ∈ src.versions := by
    rw [hsrc]
    exact List.mem_append_right _ List.mem_cons_self
  have hread : readUp src src.versions.length (some v) = w :: after := by
    refine readUp_some _ hsrc ?_
    rw [hsrc, List.length_append, List.length_cons (a := v)]
    omega
  have hfilter : s.version.filter (· ∉ src.versions) = none := by
    rw [hversion, Option.filter_some, if_neg]
    simp [hmem]
  unfold up
  rw [if_neg (by rw [hdirty]; exact Bool.false_ne_true), hfilter]
  simp only [hversion, hread]
  rw [runAll_eq body s hbody hdirty, List.getLast?_cons, Option.some_or]

/-- On a database without a record everything is run. -/
theorem up_nil (s : State) (hsrc : src.versions = v :: after)
    (hbody : ∀ u ∈ v :: after, body u = none) (hversion : s.version = none)
    (hdirty : s.dirty = false) :
    up src body s = (none, ⟨(v :: after).getLast?, false, s.ran ++ v :: after⟩) := by
  have hread : readUp src src.versions.length none = v :: after := by
    rw [readUp_none, hsrc]
  unfold up
  rw [if_neg (by rw [hdirty]; exact Bool.false_ne_true)]
  simp only [hversion, Option.filter_none, hread]
  rw [runAll_eq body s hbody hdirty, List.getLast?_cons, Option.some_or]

/-- Nothing is run behind a version that is not of the source. -/
theorem up_missing {s : State} (hnot : v ∉ src.versions) (hversion : s.version = some v)
    (hdirty : s.dirty = false) : up src body s = (some (.notFound v), s) := by
  have hfilter : s.version.filter (· ∉ src.versions) = some v := by
    rw [hversion, Option.filter_some, if_pos (decide_eq_true hnot)]
  unfold up
  rw [if_neg (by rw [hdirty]; exact Bool.false_ne_true), hfilter]

end MigrationRunner
