import CoopDB.Theory.Keys.MintTrace

/-!
# One Workspace for One Name

Calls of `MintKey` that name one workspace are meant to put all their keys into
one workspace, and to create one at most. The lookup and the insert are two
statements, and nothing in the database keeps another call from coming between
them. So two calls that find nothing both create a workspace, and from then on
the name stands for two of them.

Two conditions say which runs go well. The second one follows from the first unless
several workspaces had the name before.

## Main definitions

* `OneWorkspace`: The new keys share one workspace, and one at most is new.
* `Minting.CreatesFirst`: A call that has created a workspace commits only while no
  workspace of the name is committed.
* `FoundAlike`: The lookups of the calls that commit are answered with one workspace, if
  they are answered with any.

## Theorems

* `newWorkspaces_le_one_iff`: One workspace at most is new exactly under the first.
* `newKeys_alike_iff`: Then the new keys have one workspace exactly under the second.
* `one_workspace_iff`: The runs that go well are those with both.
-/

namespace CoopDB

open InsertTable
open Transition (run Allowed)

/-- The workspaces that were committed since. -/
def newWorkspaces (start s : MintState) : List (Uuid × String) :=
  s.tables.workspaces.rows.drop start.tables.workspaces.rows.length

/-- The keys that were committed since. -/
def newKeys (start s : MintState) : List (Uuid × KeyRow) :=
  s.tables.keys.rows.drop start.tables.keys.rows.length

/-- All new keys have one workspace, and of the name one workspace at most is
    new. -/
def OneWorkspace (x : Minting) (start s : MintState) : Prop :=
  (∀ r ∈ newKeys start s, ∀ r' ∈ newKeys start s, r.2.workspaceID = r'.2.workspaceID) ∧
    ((newWorkspaces start s).filter fun w => w.2 = x.workspace).length ≤ 1

/-- A commit that takes effect. -/
def MintAct.commits : MintAct → Bool
  | .commit _ effective => effective
  | _ => false

/-- A call that has created a workspace commits while no workspace of the name
    is committed. -/
def Minting.CreatesFirst (x : Minting) (s : MintState) (e : MintEvent) : Prop :=
  e.act.commits = true →
    s.tables.workspaces.own e.call = [] ∨ ∀ r ∈ s.tables.workspaces.rows, r.2 ≠ x.workspace

instance (x : Minting) (s : MintState) (e : MintEvent) : Decidable (x.CreatesFirst s e) :=
  inferInstanceAs (Decidable (_ → _))

/-- The lookups of the calls that commit find one workspace. -/
def FoundAlike (es : List MintEvent) : Prop :=
  ∀ i j w w', Commits es i → Commits es j → some w ∈ answers es i → some w' ∈ answers es j → w = w'

section Main

variable {x : Minting} {workspaces : List (Uuid × String)} {keys : List (Uuid × KeyRow)}

variable {start s : MintState} {es : List MintEvent}

theorem newWorkspaces_eq {W : List (Uuid × String)}
    (h : s.tables.workspaces.rows = start.tables.workspaces.rows ++ W) :
    newWorkspaces start s = W := by
  rw [newWorkspaces, h, List.drop_left]

theorem newKeys_eq {K : List (Uuid × KeyRow)}
    (h : s.tables.keys.rows = start.tables.keys.rows ++ K) :
    newKeys start s = K := by
  rw [newKeys, h, List.drop_left]

/-- Workspaces are committed by commits that take effect. -/
theorem rows_step {s' : MintState} {e : MintEvent} (h : x.step s e = some s') :
    (e.act.commits = false ∧ s'.tables.workspaces.rows = s.tables.workspaces.rows) ∨
    (e.act.commits = true ∧ (∃ m w, s.phase e.call = .inserted m w) ∧
      s'.tables.workspaces.rows = s.tables.workspaces.rows ++ s.tables.workspaces.own e.call) := by
  obtain ⟨i, act⟩ := e
  obtain ⟨phase', T', hmove, rfl⟩ := step_move x h
  dsimp only at hmove ⊢
  generalize s.phase i = phase at hmove
  cases hmove with
  | committed m w => exact .inr ⟨rfl, ⟨m, w, rfl⟩, rfl⟩
  | ended _ _ _ hopen hover hquiet =>
    refine .inl ⟨?_, rfl⟩
    cases act with
    | commit reply effective => exact (Bool.not_eq_true' effective).mp hquiet
    | _ => rfl
  | _ => exact .inl ⟨rfl, rfl⟩

/-- A commit keeps the number of new workspaces at one exactly if the call found
    its workspace or comes first. -/
theorem newWorkspaces_step {s' : MintState} {es : List MintEvent} {e : MintEvent}
    (h : MintTraced x start es s) (hstep : x.step s e = some s') :
    (newWorkspaces start s').length ≤ 1 ↔
      (newWorkspaces start s).length ≤ 1 ∧ x.CreatesFirst s e := by
  obtain ⟨W, hrows, hnamed, _⟩ := h.created
  rw [newWorkspaces_eq hrows]
  rcases rows_step hstep with ⟨hquiet, hsame⟩ | ⟨hcommit, ⟨m, w, hphase⟩, hmore⟩
  · rw [newWorkspaces_eq (hsame.trans hrows)]
    exact (and_iff_left fun hc => absurd (hquiet.symm.trans hc) Bool.false_ne_true).symm
  · rw [hrows, List.append_assoc] at hmore
    rw [newWorkspaces_eq hmore, List.length_append]
    have hcall := h.call e.call
    rw [hphase] at hcall
    rcases hcall.1 with ⟨_, hown⟩ | ⟨hnone, _, hown⟩
    · -- The workspace was found, and none is added.
      rw [hown, List.length_nil, Nat.add_zero]
      exact (and_iff_left fun _ => .inl hown).symm
    · -- The call found none, so none of the name was there at the start.
      have hstart := h.unnamed e.call (by rw [hnone]; exact List.mem_singleton.mpr rfl)
      rw [hown, List.length_singleton]
      constructor
      · intro hle
        have hnil : W = [] := List.eq_nil_of_length_eq_zero (by omega)
        refine ⟨by omega, fun _ => .inr fun r hr => ?_⟩
        rw [hrows, hnil, List.append_nil] at hr
        exact hstart r hr
      · rintro ⟨_, hfirst⟩
        rcases hfirst hcommit with hempty | hfree
        · rw [hown] at hempty
          exact absurd hempty (List.cons_ne_nil _ _)
        · -- A new workspace would have the name.
          cases W with
          | nil => exact Nat.le_refl 1
          | cons r =>
            refine absurd (hnamed r List.mem_cons_self).1 (hfree r ?_)
            rw [hrows]
            exact List.mem_append_right _ List.mem_cons_self

/-- One workspace at most is new exactly if each call that commits one comes
    first. -/
theorem newWorkspaces_le_one_iff (es : List MintEvent) (s : MintState)
    (hrun : run x.step (.start workspaces keys) es = some s) :
    (newWorkspaces (.start workspaces keys) s).length ≤ 1 ↔
      Allowed x.step x.CreatesFirst (.start workspaces keys) es := by
  induction es using List.reverseRecOn generalizing s with
  | nil =>
    rw [← Option.some.inj hrun, newWorkspaces, List.drop_length]
    exact iff_of_true (Nat.zero_le 1) trivial
  | append_singleton es e ih =>
    rcases (Transition.run_snoc es e).mp hrun with ⟨t, ht, hlast⟩
    rw [newWorkspaces_step (mintTraced_run workspaces keys es t ht) hlast, ih t ht,
      Transition.allowed_append]
    refine and_congr_right fun _ => ⟨fun hfirst u hu => ?_, fun hall => (hall t ht).1⟩
    rw [Option.some.inj (hu.symm.trans ht)]
    exact ⟨hfirst, fun _ _ => trivial⟩

/-- What a call was answered is all it was answered. -/
theorem MintTraced.answers_eq (h : MintTraced x start es s) {i : Nat} {a : Option Uuid}
    (ha : a ∈ answers es i) : answers es i = [a] := by
  have hone := (h.call i).answers_le
  cases heq : answers es i with
  | nil =>
    rw [heq] at ha
    exact absurd ha List.not_mem_nil
  | cons b rest =>
    rw [heq, List.length_cons] at hone
    have hrest : rest = [] := List.eq_nil_of_length_eq_zero (by omega)
    rw [heq, hrest, List.mem_singleton] at ha
    rw [hrest, ha]

theorem eq_of_mem_of_length_le_one {α : Type} {rows : List α} (h : rows.length ≤ 1) {r r' : α}
    (hr : r ∈ rows) (hr' : r' ∈ rows) : r = r' := by
  cases rows with
  | nil => exact absurd hr List.not_mem_nil
  | cons v rest =>
    rw [List.length_cons] at h
    have hrest : rest = [] := List.eq_nil_of_length_eq_zero (by omega)
    rw [hrest, List.mem_singleton] at hr hr'
    rw [hr, hr']

/-- With none of the name at the start, a workspace that a lookup found is new. -/
theorem MintTraced.found_new {W : List (Uuid × String)} (h : MintTraced x start es s)
    (hrows : s.tables.workspaces.rows = start.tables.workspaces.rows ++ W)
    (hstart : ∀ r ∈ start.tables.workspaces.rows, r.2 ≠ x.workspace) {i : Nat} {w : Uuid}
    (hw : some w ∈ answers es i) : (w, x.workspace) ∈ W := by
  have hmem := h.found i w hw
  rw [hrows] at hmem
  rcases List.mem_append.mp hmem with hold | hnew
  · exact absurd rfl (hstart _ hold)
  · exact hnew

/-- With one new workspace at most, the new keys have one workspace exactly if
    the lookups of their calls found one. -/
theorem newKeys_alike_iff (h : MintTraced x start es s) (hle : (newWorkspaces start s).length ≤ 1) :
    (∀ r ∈ newKeys start s, ∀ r' ∈ newKeys start s, r.2.workspaceID = r'.2.workspaceID) ↔
      FoundAlike es := by
  obtain ⟨W, hrows, hnamed, hcreated⟩ := h.created
  obtain ⟨K, hkeys, horigin, hminted⟩ := h.minted
  rw [newWorkspaces_eq hrows] at hle
  rw [newKeys_eq hkeys]
  constructor
  · -- The key of a call has the workspace its lookup found.
    have hkey : ∀ i w, Commits es i → some w ∈ answers es i → ∃ r ∈ K, r.2.workspaceID = w := by
      intro i w hi hw
      obtain ⟨r, hr, hchose⟩ := hminted i hi
      refine ⟨r, hr, ?_⟩
      have hone := h.answers_eq hw
      rcases hchose with hfound | ⟨hnone, _⟩
      · rw [hone, List.cons.injEq, Option.some.injEq] at hfound
        exact hfound.1.symm
      · rw [hone] at hnone
        cases hnone
    intro hall i j w w' hi hj hw hw'
    obtain ⟨r, hr, rfl⟩ := hkey i w hi hw
    obtain ⟨r', hr', rfl⟩ := hkey j w' hj hw'
    exact hall r hr r' hr'
  · intro halike r hr r' hr'
    obtain ⟨i, hi, hchose⟩ := horigin r hr
    obtain ⟨j, hj, hchose'⟩ := horigin r' hr'
    by_cases hcreator : ∃ k, Commits es k ∧ answers es k = [none]
    · -- Then every workspace that was chosen is the new one.
      obtain ⟨k, _, hk⟩ := hcreator
      have hstart := h.unnamed k (by rw [hk]; exact List.mem_singleton.mpr rfl)
      have hnew : ∀ n w, Commits es n → Chose x es n w → (w, x.workspace) ∈ W := by
        intro n w hn hc
        rcases hc with hfound | ⟨hnone, rfl⟩
        · exact h.found_new hrows hstart (by rw [hfound]; exact List.mem_singleton.mpr rfl)
        · exact hcreated n hn hnone
      exact (Prod.mk.inj (eq_of_mem_of_length_le_one hle (hnew i _ hi hchose)
        (hnew j _ hj hchose'))).1
    · -- Nobody created one, so every workspace that was chosen was found.
      have hfound : ∀ n w, Commits es n → Chose x es n w → some w ∈ answers es n := by
        intro n w hn hc
        rcases hc with hfound | ⟨hnone, _⟩
        · rw [hfound]
          exact List.mem_singleton.mpr rfl
        · exact absurd ⟨n, hn, hnone⟩ hcreator
      exact halike i j _ _ hi hj (hfound i _ hi hchose) (hfound j _ hj hchose')

/-- With one workspace of the name at most, the lookups find one. -/
theorem foundAlike_of_named_le_one (h : MintTraced x start es s)
    (hle : (newWorkspaces start s).length ≤ 1)
    (hstart : (start.tables.workspaces.rows.filter fun r => r.2 = x.workspace).length ≤ 1) :
    FoundAlike es := by
  obtain ⟨W, hrows, hnamed, _⟩ := h.created
  rw [newWorkspaces_eq hrows] at hle
  intro i j w w' _ _ hw hw'
  cases hW : W with
  | nil =>
    rw [hW, List.append_nil] at hrows
    have hold : ∀ n v, some v ∈ answers es n → (v, x.workspace) ∈
        start.tables.workspaces.rows.filter fun r => r.2 = x.workspace := by
      intro n v hv
      refine List.mem_filter.mpr ⟨?_, decide_eq_true rfl⟩
      rw [← hrows]
      exact h.found n v hv
    exact (Prod.mk.inj (eq_of_mem_of_length_le_one hstart (hold i w hw) (hold j w' hw'))).1
  | cons r =>
    -- Somebody found none, so the name had none at the start.
    obtain ⟨_, k, _, hk⟩ := hnamed r (by rw [hW]; exact List.mem_cons_self)
    have hfree := h.unnamed k (by rw [hk]; exact List.mem_singleton.mpr rfl)
    exact (Prod.mk.inj (eq_of_mem_of_length_le_one hle (h.found_new hrows hfree hw)
      (h.found_new hrows hfree hw'))).1

end Main

/-- In every run of calls that name one workspace, all new keys have one
    workspace and one workspace of the name at most is new exactly if each call
    that creates a workspace commits while there is none of the name, and the
    lookups of the calls that commit find one workspace. Where the name had one
    workspace at most before, the first condition is enough. -/
theorem one_workspace_iff (x : Minting) (workspaces : List (Uuid × String))
    (keys : List (Uuid × KeyRow)) (es : List MintEvent) (s : MintState)
    (hrun : run x.step (.start workspaces keys) es = some s) :
    (OneWorkspace x (.start workspaces keys) s ↔
      Allowed x.step x.CreatesFirst (.start workspaces keys) es ∧ FoundAlike es) ∧
    ((workspaces.filter fun w => w.2 = x.workspace).length ≤ 1 →
      (OneWorkspace x (.start workspaces keys) s ↔
        Allowed x.step x.CreatesFirst (.start workspaces keys) es)) := by
  have htraced := mintTraced_run workspaces keys es s hrun
  have hall : (newWorkspaces (.start workspaces keys) s).filter (fun w => w.2 = x.workspace) =
      newWorkspaces (.start workspaces keys) s := by
    obtain ⟨W, hrows, hnamed, _⟩ := htraced.created
    rw [newWorkspaces_eq hrows, List.filter_eq_self]
    exact fun r hr => decide_eq_true (hnamed r hr).1
  have hiff : OneWorkspace x (.start workspaces keys) s ↔
      Allowed x.step x.CreatesFirst (.start workspaces keys) es ∧ FoundAlike es := by
    rw [OneWorkspace, hall, and_comm, newWorkspaces_le_one_iff es s hrun]
    refine and_congr_right fun hfirst => newKeys_alike_iff htraced ?_
    exact (newWorkspaces_le_one_iff es s hrun).mpr hfirst
  refine ⟨hiff, fun hstart => hiff.trans (and_iff_left_of_imp fun hfirst => ?_)⟩
  exact foundAlike_of_named_le_one htraced ((newWorkspaces_le_one_iff es s hrun).mpr hfirst) hstart

/-- Two calls for the default workspace. -/
def twoCalls : Minting :=
  { workspace := "default"
    calls := fun i =>
      if i = 0 then
        { mint := .ok { id := 10, keyID := "key0", fullToken := "token0", secretHash := "hash0" }
          fresh := 1, pgRole := "dbadmin", env := "dev" }
      else
        { mint := .ok { id := 11, keyID := "key1", fullToken := "token1", secretHash := "hash1" }
          fresh := 2, pgRole := "dbuser", env := "dev" } }

/-- The second call comes after the first. -/
def oneByOne : List MintEvent :=
  [⟨0, .begin none none none⟩, ⟨0, .lookup (.ok none)⟩, ⟨0, .createWorkspace none⟩,
    ⟨0, .insert none⟩,
    ⟨0, .commit none true⟩, ⟨1, .begin none none none⟩, ⟨1, .lookup (.ok (some 1))⟩,
    ⟨1, .insert none⟩, ⟨1, .commit none true⟩]

/-- The keys of the two calls have one workspace. -/
theorem one_by_one_shares :
    ∃ s, run twoCalls.step (.start [] []) oneByOne = some s ∧
      s.tables.keys.rows.length = 2 ∧ OneWorkspace twoCalls (.start [] []) s := by
  refine ⟨_, rfl, rfl, ?_⟩
  exact ((one_workspace_iff twoCalls [] [] oneByOne _ rfl).2 (by decide)).mpr (by decide)

/-- Both calls look before either commits. -/
def bothMissing : List MintEvent :=
  [⟨0, .begin none none none⟩, ⟨0, .lookup (.ok none)⟩, ⟨1, .begin none none none⟩,
    ⟨1, .lookup (.ok none)⟩, ⟨0, .createWorkspace none⟩, ⟨0, .insert none⟩, ⟨0, .commit none true⟩,
    ⟨1, .createWorkspace none⟩, ⟨1, .insert none⟩, ⟨1, .commit none true⟩]

/-- Both calls return their tokens, the name has two workspaces, and each has
    one of the keys. -/
theorem name_split_in_two :
    ∃ s, run twoCalls.step (.start [] []) bothMissing = some s ∧
      s.phase 0 = .returned (.ok "token0") ∧ s.phase 1 = .returned (.ok "token1") ∧
      s.tables.workspaces.rows = [(1, "default"), (2, "default")] ∧
      s.tables.keys.rows.map (fun r => r.2.workspaceID) = [1, 2] ∧
      ¬ OneWorkspace twoCalls (.start [] []) s := by
  refine ⟨_, rfl, rfl, rfl, rfl, rfl, fun h => ?_⟩
  exact absurd h.2 (by decide)

end CoopDB
