import CoopDB.Core.Migrations

/-!
# Recovery From a Dirty Migration

A boot that was cut short leaves its migration dirty. The next one is to run it
again, and everything behind it.

`RunMigrations` forces the dirty version less one, and takes that for the version
before. It is the version before only if the numbers have no gap there. Otherwise
it is the number of no migration, and the runner goes on behind nothing else. The
first migration has no version before it at all: forcing has to reach the nil
version, which is the number before zero.

## Theorems

* `runMigrations_dirty`: A dirty database is forced, and tried again.
* `recovers_iff`: The next boot recovers exactly if the dirty version less one is the
  version before.
* `first_migration_stays_broken`: The migrations of the repository do not.
-/

namespace CoopDB

open MigrationRunner

variable (src : Source) (body : Nat → Option String)

/-- A dirty database is forced to the number before, and tried again. -/
theorem runMigrations_dirty {v : Nat} {s : State} (hversion : s.version = some v)
    (hdirty : s.dirty = true) :
    runMigrations src body s = afterRetry v (up src body
      { s with version := if v = 0 then none else some (v - 1), dirty := false }) := by
  have hup : up src body s = (some (.dirty v), s) := by
    unfold up
    rw [if_pos hdirty, hversion]
    rfl
  have hforce : force ((v : Int) - 1) s =
      (none, { s with version := if v = 0 then none else some (v - 1), dirty := false }) := by
    unfold force
    rw [if_neg (by omega)]
    by_cases hzero : v = 0
    · rw [if_pos (by omega), if_pos hzero]
    · rw [if_neg (by omega), if_neg hzero, show ((v : Int) - 1).toNat = v - 1 by omega]
  unfold runMigrations
  simp only [hup, hforce]

/-- The number before a version is the version before it, or no version. -/
theorem mem_versions_pred {before after : List Nat} {v : Nat} (hv : v ≠ 0)
    (hsrc : src.versions = before ++ v :: after) (hmem : v - 1 ∈ src.versions) :
    before.getLast? = some (v - 1) := by
  obtain ⟨hbefore, hafter⟩ := lt_of_versions hsrc
  have hin : v - 1 ∈ before := by
    rw [hsrc, List.mem_append, List.mem_cons] at hmem
    rcases hmem with hmem | hmem | hmem
    · exact hmem
    · omega
    · exact absurd (hafter _ hmem) (by omega)
  -- Nothing fits between the two, so it is the last one before.
  obtain ⟨front, back, rfl⟩ := List.append_of_mem hin
  cases back with
  | nil => exact List.getLast?_concat
  | cons w back =>
    have hw : w < v := hbefore w (List.mem_append_right _
      (List.mem_cons_of_mem _ List.mem_cons_self))
    have hsrc' : src.versions = front ++ (v - 1) :: (w :: back ++ v :: after) := by
      rw [hsrc, List.append_assoc, List.cons_append]
    have hlt := (lt_of_versions hsrc').2 w List.mem_cons_self
    omega

/-- A database that is dirty at a version recovers exactly if the version before it
    has the number before it, or it is the first one and has the number zero. -/
theorem recovers_iff (before after : List Nat) (v : Nat) (s : State)
    (hsrc : src.versions = before ++ v :: after) (hversion : s.version = some v)
    (hdirty : s.dirty = true) (hbody : ∀ u ∈ v :: after, body u = none) :
    runMigrations src body s =
        (none, ⟨(v :: after).getLast?, false, s.ran ++ v :: after⟩) ↔
      before = [] ∧ v = 0 ∨ ∃ u, before.getLast? = some u ∧ u + 1 = v := by
  rw [runMigrations_dirty src body hversion hdirty]
  by_cases hzero : v = 0
  · -- Nothing is before zero, and the nil version is forced.
    have hnil : before = [] := by
      refine List.eq_nil_iff_forall_not_mem.mpr fun u hu => ?_
      have hlt := (lt_of_versions hsrc).1 u hu
      omega
    rw [hnil, List.nil_append] at hsrc
    rw [if_pos hzero, up_nil src body _ hsrc hbody rfl rfl]
    exact ⟨fun _ => .inl ⟨hnil, hzero⟩, fun _ => rfl⟩
  · rw [if_neg hzero]
    by_cases hmem : v - 1 ∈ src.versions
    · have hlast := mem_versions_pred src hzero hsrc hmem
      obtain ⟨front, hfront⟩ := List.getLast?_eq_some_iff.mp hlast
      have hsrc' : src.versions = front ++ (v - 1) :: v :: after := by
        rw [hsrc, hfront, List.append_assoc, List.singleton_append]
      rw [up_behind src body _ hsrc' hbody rfl rfl]
      exact ⟨fun _ => .inr ⟨v - 1, hlast, by omega⟩, fun _ => rfl⟩
    · rw [up_missing src body hmem rfl rfl]
      constructor
      · intro h
        exact nomatch (congrArg Prod.fst h)
      · rintro (⟨_, h⟩ | ⟨u, hlast, hu⟩)
        · exact absurd h hzero
        · refine absurd ?_ hmem
          rw [hsrc, show v - 1 = u by omega]
          exact List.mem_append_left _ (List.mem_of_getLast? hlast)

/-- Four migrations with a gap. The third recovers. -/
theorem third_of_gap_recovers :
    runMigrations ⟨[1, 3, 4, 7], by decide⟩ (fun _ => none) ⟨some 4, true, [1, 3]⟩ =
      (none, ⟨some 7, false, [1, 3, 4, 7]⟩) :=
  (recovers_iff ⟨[1, 3, 4, 7], by decide⟩ (fun _ => none) [1, 3] [7] 4 ⟨some 4, true, [1, 3]⟩
    rfl rfl rfl (fun _ _ => rfl)).mpr (.inr ⟨3, rfl, rfl⟩)

/-- The migrations of the repository, dirty at the first one. Version zero is forced,
    there is none, and nothing is run. -/
theorem first_migration_stays_broken :
    runMigrations ⟨[1, 2, 3, 4, 5, 6, 7, 8, 9, 10], by decide⟩ (fun _ => none)
        ⟨some 1, true, []⟩ =
      (some (.retry 1 (.notFound 0)), ⟨some 0, false, []⟩) ∧
    runMigrations ⟨[1, 2, 3, 4, 5, 6, 7, 8, 9, 10], by decide⟩ (fun _ => none)
        ⟨some 1, true, []⟩ ≠
      (none, ⟨some 10, false, [1, 2, 3, 4, 5, 6, 7, 8, 9, 10]⟩) := by
  decide

end CoopDB
