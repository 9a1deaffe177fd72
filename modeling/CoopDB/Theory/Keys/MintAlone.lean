import CoopDB.Theory.Keys.OneWorkspace

/-!
# A Call of `MintKey` on Its Own

`mintKey` says what a call does to the tables and what it returns, and the runs
of `Minting` take a call apart into its statements. The two say the same of a
call that nobody comes between: from a state without uncommitted rows, there is
a run of its own statements that ends with the tables and the result `mintKey`
has for the same answers of the database.

## Main definitions

* `mintConnected`: `MintKey` from its URL on.
* `EndsWith`: A run of one call and what it comes to.

## Theorems

* `mintKey_eq_prepare`: `mintKey` is its checks and what follows them.
* `inserted_ends`, `ready_ends`, `begun_ends`: The call from its commit, from its
  workspace and from its lookup on.
* `mintKey_alone`: A call that nobody comes between does what `mintKey` does.
-/

namespace CoopDB

open InsertTable
open Transition (run)

/-- The committed rows. -/
def MintState.store (s : MintState) : KeyStore :=
  { workspaces := s.tables.workspaces.rows, keys := fun id => s.tables.keys.rows.lookup id }

/-- `MintKey` from its URL on. -/
def mintConnected (fresh : Uuid) (db : MintReplies) (s : KeyStore) (workspace pgRole : String)
    (p : KeyEnvironment × Minted) : Except Failure (KeyStore × String) := do
  Fallible.raise db.inject injectFailure
  Fallible.raise db.connect (DbError.wrap "connect: ")
  Fallible.raise db.begin (DbError.wrap "begin tx: ")
  let found ← s.workspace workspace fresh db
  Fallible.raise db.insert (DbError.wrap "insert api_key: ")
  let keys' ← (s.keys.insert p.2.id (mintedRow found.1 p.1 p.2 pgRole)).mapError
    (DbError.wrap "insert api_key: ")
  Fallible.raise db.commit (DbError.wrap "commit: ")
  return ({ workspaces := found.2, keys := keys' }, p.2.fullToken)

theorem mintKey_eq_prepare (x : Minting) (c : MintCall) (db : MintReplies) (s : KeyStore) :
    mintKey c.mint c.fresh db s x.workspace c.pgRole c.env =
      (x.prepare c).bind (mintConnected c.fresh db s x.workspace c.pgRole) := by
  unfold mintKey Minting.prepare
  -- Each check ends both sides or neither.
  cases Fallible.ensure (x.workspace != "") (Failure.other "MintKey: empty workspace") with
  | error => rfl
  | ok u =>
    cases Fallible.ensure (c.pgRole != "") (Failure.other "MintKey: empty pg_role") with
    | error => rfl
    | ok =>
      cases Fallible.require (keyEnvironment c.env) (Failure.other
        ("MintKey: invalid env " ++ goQuote c.env ++ " (must be dev / live / test)")) with
      | error => rfl
      | ok =>
        cases c.mint with
        | error | ok => rfl

section Alone

variable (x : Minting) (i : Nat)

/-- Some statements of the call lead from the state to its end, with a result
    and with the tables that go with it. A call that fails leaves the tables as
    they were. -/
def EndsWith (s : MintState) (before : KeyStore)
    (outcome : Except Failure (KeyStore × String)) : Prop :=
  ∃ es s', (∀ e ∈ es, e.call = i) ∧ run x.step s es = some s' ∧
    s'.phase i = .returned (outcome.map Prod.snd) ∧
    s'.store = (outcome.map Prod.fst).toOption.getD before

variable {x i}

variable {s : MintState}

/-- One statement more at the front. -/
theorem EndsWith.step {before : KeyStore} {outcome : Except Failure (KeyStore × String)}
    {phase phase' : MintPhase} {T' : MintTables} (act : MintAct) (hphase : s.phase i = phase)
    (h : x.callStep i s.tables phase act = some (phase', T'))
    (hrest : EndsWith x i { tables := T', phase := Function.update s.phase i phase' }
      before outcome) :
    EndsWith x i s before outcome := by
  obtain ⟨es, s', hown, hrun, hreturned, hstore⟩ := hrest
  refine ⟨⟨i, act⟩ :: es, s', ?_, ?_, hreturned, hstore⟩
  · rw [List.forall_mem_cons]
    exact ⟨rfl, hown⟩
  · rw [run, Minting.step, hphase, h, Option.map_some]
    exact hrun

/-- The call returns. -/
theorem EndsWith.last {before : KeyStore} {outcome : Except Failure (KeyStore × String)}
    {phase : MintPhase} {T' : MintTables} (act : MintAct) (hphase : s.phase i = phase)
    (h : x.callStep i s.tables phase act = some (.returned (outcome.map Prod.snd), T'))
    (hstore : ∀ phase, MintState.store { tables := T', phase := phase } =
      (outcome.map Prod.fst).toOption.getD before) :
    EndsWith x i s before outcome := by
  refine EndsWith.step act hphase h
    ⟨[], _, fun e he => absurd he List.not_mem_nil, rfl, ?_, hstore _⟩
  exact Function.update_self _ _ _

/-- A statement fails, and what the call has inserted is gone. -/
theorem EndsWith.fail {e : Failure} {phase : MintPhase} (act : MintAct) (hphase : s.phase i = phase)
    (h : x.callStep i s.tables phase act = Minting.fail s.tables i e) :
    EndsWith x i s s.store (.error e) :=
  EndsWith.last act hphase h fun _ => rfl

/-- A key that is not in the table is found once it has been appended. -/
theorem lookup_append_new {id : Uuid} {row : KeyRow} {rows : List (Uuid × KeyRow)}
    (h : rows.lookup id = none) :
    (fun k => (rows ++ [(id, row)]).lookup k) =
      Function.update (fun k => rows.lookup k) id (some row) := by
  funext k
  rw [List.lookup_append]
  by_cases hk : k = id
  · subst hk
    rw [Function.update_self, h, Option.none_or, List.lookup_cons_self]
  · rw [Function.update_of_ne hk, List.lookup_cons, beq_false_of_ne hk]
    exact Option.or_none

theorem insertable_of_forall_ne {ρ : Type} {T : Table Uuid Nat ρ} {id : Uuid}
    (hpending : T.pending = []) (h : ∀ r ∈ T.rows, r.1 ≠ id) : T.insertable id = true := by
  unfold Table.insertable
  rw [hpending, List.all_nil, Bool.and_true, List.all_eq_true]
  exact fun r hr => decide_eq_true (h r hr)

/-- The commit. -/
theorem inserted_ends {m : Minted} {w : Uuid} {row : KeyRow} (db : MintReplies)
    (hphase : s.phase i = .inserted m w) (hown : s.tables.keys.own i = [(m.id, row)])
    (hkey : s.tables.keys.rows.lookup m.id = none) : EndsWith x i s s.store (do
      Fallible.raise db.commit (DbError.wrap "commit: ")
      return ({ workspaces := s.tables.workspaces.visible i
                keys := Function.update s.store.keys m.id (some row) }, m.fullToken)) := by
  cases db.commit with
  | some e => exact EndsWith.fail (.commit (some e) false) hphase rfl
  | none =>
    refine EndsWith.last (.commit none true) hphase rfl (fun phase => ?_)
    have hkeys : (fun k => (s.tables.keys.visible i).lookup k) =
        Function.update s.store.keys m.id (some row) := by
      rw [Table.visible, hown]
      exact lookup_append_new hkey
    change KeyStore.mk (s.tables.workspaces.visible i)
      (fun k => (s.tables.keys.visible i).lookup k) = _
    rw [hkeys]
    rfl

/-- From the workspace on. -/
theorem ready_ends {env : KeyEnvironment} {m : Minted} {w : Uuid}
    {workspaces : List (Uuid × String)} (db : MintReplies) (hphase : s.phase i = .ready env m w)
    (hpending : s.tables.keys.pending = [])
    (hvisible : s.tables.workspaces.visible i = workspaces) :
    EndsWith x i s s.store (do
      Fallible.raise db.insert (DbError.wrap "insert api_key: ")
      let keys' ← (s.store.keys.insert m.id (mintedRow w env m (x.calls i).pgRole)).mapError
        (DbError.wrap "insert api_key: ")
      Fallible.raise db.commit (DbError.wrap "commit: ")
      return ({ workspaces := workspaces, keys := keys' }, m.fullToken)) := by
  subst hvisible
  cases db.insert with
  | some e => exact EndsWith.fail (.insert (some e)) hphase rfl
  | none =>
    cases hkey : s.tables.keys.rows.lookup m.id with
    | some =>
      -- The id is taken, and the primary key makes the insert fail.
      have hdup : s.store.keys.insert m.id (mintedRow w env m (x.calls i).pgRole) =
          .error duplicateKey := by
        unfold Keys.insert MintState.store
        simp only [hkey]
      rw [hdup]
      exact EndsWith.fail (.insert (some duplicateKey)) hphase rfl
    | none =>
      have hok : s.store.keys.insert m.id (mintedRow w env m (x.calls i).pgRole) =
          .ok (Function.update s.store.keys m.id
            (some (mintedRow w env m (x.calls i).pgRole))) := by
        unfold Keys.insert MintState.store
        simp only [hkey]
      have hfree : ∀ r ∈ s.tables.keys.rows, r.1 ≠ m.id := by
        intro r hr heq
        rw [List.lookup_eq_none_iff] at hkey
        exact absurd heq.symm (bne_iff_ne.mp (hkey r hr))
      have hnone : s.tables.keys.own i = [] := by
        rw [Table.own, hpending]
        rfl
      rw [hok]
      refine EndsWith.step (.insert none) hphase
        (if_pos (insertable_of_forall_ne hpending hfree)) ?_
      refine inserted_ends db (Function.update_self _ _ _) ?_ hkey
      change (s.tables.keys.insert i m.id (mintedRow w env m (x.calls i).pgRole)).own i = _
      rw [Table.own_insert_self, hnone]
      rfl

/-- From the lookup on. -/
theorem begun_ends {env : KeyEnvironment} {m : Minted} (db : MintReplies)
    (hphase : s.phase i = .begun env m) (hws : s.tables.workspaces.pending = [])
    (hkeys : s.tables.keys.pending = [])
    (hfresh : ∀ r ∈ s.tables.workspaces.rows, r.1 ≠ (x.calls i).fresh) : EndsWith x i s s.store (do
      let found ← s.store.workspace x.workspace (x.calls i).fresh db
      Fallible.raise db.insert (DbError.wrap "insert api_key: ")
      let keys' ← (s.store.keys.insert m.id (mintedRow found.1 env m (x.calls i).pgRole)).mapError
        (DbError.wrap "insert api_key: ")
      Fallible.raise db.commit (DbError.wrap "commit: ")
      return ({ workspaces := found.2, keys := keys' }, m.fullToken)) := by
  have hown : s.tables.workspaces.own i = [] := by
    rw [Table.own, hws]
    rfl
  have hnamed : x.named s.tables i =
      (s.store.workspaces.filter fun w => w.2 == x.workspace).map Prod.fst := by
    rw [Minting.named, Table.visible, hown, List.append_nil]
    rfl
  unfold KeyStore.workspace
  cases db.lookup with
  | some e => exact EndsWith.fail (.lookup (.error e)) hphase rfl
  | none =>
    cases hfilter : s.store.workspaces.filter fun w => w.2 == x.workspace with
    | nil =>
      -- The call sees no workspace of the name, and creates one.
      rw [hfilter] at hnamed
      refine EndsWith.step (.lookup (.ok none)) hphase (if_pos hnamed) ?_
      cases db.createWorkspace with
      | some e => exact EndsWith.fail (.createWorkspace (some e)) (Function.update_self _ _ _) rfl
      | none =>
        refine EndsWith.step (.createWorkspace none) (Function.update_self _ _ _)
          (if_pos (insertable_of_forall_ne hws hfresh)) ?_
        refine ready_ends db (Function.update_self _ _ _) hkeys ?_
        change s.tables.workspaces.rows ++
          (s.tables.workspaces.insert i (x.calls i).fresh x.workspace).own i = _
        rw [Table.own_insert_self, hown]
        rfl
    | cons w ws =>
      -- The answer is the one that the database picks among those of the name.
      have hmem : ((w :: ws).getD db.first w).1 ∈ x.named s.tables i := by
        rw [hnamed, hfilter]
        refine List.mem_map_of_mem ?_
        rw [List.getD_eq_getElem?_getD]
        cases hget : (w :: ws)[db.first]? with
        | none => exact List.mem_cons_self
        | some => exact List.mem_of_getElem? hget
      refine EndsWith.step (.lookup (.ok (some _))) hphase (if_pos hmem) ?_
      refine ready_ends db (Function.update_self _ _ _) hkeys ?_
      change s.tables.workspaces.rows ++ s.tables.workspaces.own i = _
      rw [hown, List.append_nil]
      rfl

/-- A call that nobody comes between does what `mintKey` does. -/
theorem mintKey_alone (x : Minting) (i : Nat) (s : MintState) (db : MintReplies)
    (hidle : s.phase i = .idle) (hws : s.tables.workspaces.pending = [])
    (hkeys : s.tables.keys.pending = [])
    (hfresh : ∀ r ∈ s.tables.workspaces.rows, r.1 ≠ (x.calls i).fresh) :
    EndsWith x i s s.store (mintKey (x.calls i).mint (x.calls i).fresh db s.store x.workspace
      (x.calls i).pgRole (x.calls i).env) := by
  rw [mintKey_eq_prepare]
  cases hprepare : x.prepare (x.calls i) with
  | error =>
    -- The call returns before it connects, whatever the connection would say.
    refine EndsWith.last (.begin none none none) hidle ?_ (fun _ => rfl)
    simp only [Minting.callStep, hprepare]
    rfl
  | ok p =>
    obtain ⟨env, m⟩ := p
    change EndsWith x i s s.store
      (mintConnected (x.calls i).fresh db s.store x.workspace (x.calls i).pgRole (env, m))
    unfold mintConnected
    cases hinject : db.inject with
    | some e =>
      refine EndsWith.last (.begin (some e) none none) hidle ?_ (fun _ => rfl)
      simp only [Minting.callStep, hprepare]
      rfl
    | none =>
      cases hconnect : db.connect with
      | some e =>
        refine EndsWith.last (.begin none (some e) none) hidle ?_ (fun _ => rfl)
        simp only [Minting.callStep, hprepare]
        rfl
      | none =>
        cases hbegin : db.begin with
        | some e =>
          refine EndsWith.last (.begin none none (some e)) hidle ?_ (fun _ => rfl)
          simp only [Minting.callStep, hprepare]
          rfl
        | none =>
          have hstep : x.callStep i s.tables .idle (.begin none none none) =
              some (.begun env m, s.tables) := by
            simp only [Minting.callStep, hprepare]
          exact EndsWith.step (.begin none none none) hidle hstep
            (begun_ends db (Function.update_self _ _ _) hws hkeys hfresh)

end Alone

/-- The first of two calls, on empty tables and with every statement accepted. -/
theorem first_mint_alone :
    EndsWith twoCalls 0 (MintState.start [] []) (MintState.start [] []).store
      (mintKey (twoCalls.calls 0).mint (twoCalls.calls 0).fresh
        ⟨none, none, none, none, 0, none, none, none⟩ (MintState.start [] []).store
        twoCalls.workspace (twoCalls.calls 0).pgRole (twoCalls.calls 0).env) :=
  mintKey_alone twoCalls 0 (MintState.start [] []) ⟨none, none, none, none, 0, none, none, none⟩
    rfl rfl rfl (fun _ hr => absurd hr List.not_mem_nil)

end CoopDB
