import CoopDB.Core.MintRuns
import CoopDB.Lib.Transition

/-!
# What the Events of a Minting Run Say

Calls of `MintKey` that name one workspace, in any interleaving. Most statements
concern nobody but the call itself.

The events of a run tell what the calls were answered and whose commits took
effect. From that follows what the tables hold: a call that found a workspace found a
committed one, a call that found none shows that there was none at the start, and the
new rows are those of the calls that committed.

## Main definitions

* `MintMove`: The eight things a statement can do.
* `MintAct.isQuiet`: A statement the others hear nothing of.
* `answers`, `Commits`: What the events say of a call.
* `CallHolds`: What a call has inserted, at each of its statements.
* `MintTraced`: What the events say of the tables.

## Theorems

* `callStep_move`: Every statement is one of these moves.
* `MintTraced.quiet`, `MintTraced.lookup`, `MintTraced.commit`: The three kinds of moves.
* `mintTraced_step`, `mintTraced_run`: One statement, and a whole run.
-/

namespace CoopDB

open InsertTable
open Transition (run)

/-! ### What a statement can do -/

/-- The call has returned, or its process is dead. -/
def MintPhase.isOver : MintPhase → Bool
  | .returned _ => true
  | .dead => true
  | _ => false

/-- No lookup is answered and nothing is committed. -/
def MintAct.isQuiet : MintAct → Bool
  | .lookup (.ok _) => false
  | .commit _ effective => !effective
  | _ => true

/-- The effect of one statement of a call. -/
inductive MintMove (x : Minting) (i : Nat) (T : MintTables) :
    MintPhase → MintAct → MintPhase → MintTables → Prop
  | refused (inject : Option String) (connect begin : Option DbError)
      (result : Except Failure String) :
      MintMove x i T .idle (.begin inject connect begin) (.returned result) T
  | begun (inject : Option String) (connect begin : Option DbError) (env : KeyEnvironment)
      (m : Minted) : MintMove x i T .idle (.begin inject connect begin) (.begun env m) T
  | ended (phase phase' : MintPhase) (act : MintAct) (hopen : phase.isOpen = true)
      (hover : phase'.isOver = true) (hquiet : act.isQuiet = true) :
      MintMove x i T phase act phase' (T.rollback i)
  | missing (env : KeyEnvironment) (m : Minted) (hnone : x.named T i = []) :
      MintMove x i T (.begun env m) (.lookup (.ok none)) (.missing env m) T
  | found (env : KeyEnvironment) (m : Minted) (w : Uuid) (hmem : w ∈ x.named T i) :
      MintMove x i T (.begun env m) (.lookup (.ok (some w))) (.ready env m w) T
  | created (env : KeyEnvironment) (m : Minted) :
      MintMove x i T (.missing env m) (.createWorkspace none) (.ready env m (x.calls i).fresh)
        { T with workspaces := T.workspaces.insert i (x.calls i).fresh x.workspace }
  | inserted (env : KeyEnvironment) (m : Minted) (w : Uuid) :
      MintMove x i T (.ready env m w) (.insert none) (.inserted m w)
        { T with keys := T.keys.insert i m.id (mintedRow w env m (x.calls i).pgRole) }
  | committed (m : Minted) (w : Uuid) (reply : Option DbError) (result : Except Failure String) :
      MintMove x i T (.inserted m w) (.commit reply true) (.returned result) (T.commit i)

section Step

variable (x : Minting)

/-- A statement that fails ends its call. -/
theorem fail_move {i : Nat} {T T' : MintTables} {phase phase' : MintPhase} {act : MintAct}
    {e : Failure} (hopen : phase.isOpen = true) (hquiet : act.isQuiet = true)
    (h : Minting.fail T i e = some (phase', T')) : MintMove x i T phase act phase' T' := by
  unfold Minting.fail at h
  cases h
  exact .ended phase _ act hopen rfl hquiet

theorem callStep_move {i : Nat} {T T' : MintTables} {phase phase' : MintPhase} {act : MintAct}
    (h : x.callStep i T phase act = some (phase', T')) : MintMove x i T phase act phase' T' := by
  -- One case for each phase with its action, and in each the error comes first.
  unfold Minting.callStep at h
  split at h
  case h_1 inject connect begin =>
    split at h
    case h_1 e he =>
      cases h
      exact .refused _ _ _ _
    case h_2 env m hm =>
      split at h
      case h_4 =>
        cases h
        exact .begun _ _ _ _ _
      all_goals
        cases h
        exact .refused _ _ _ _
  case h_2 env m answer =>
    split at h
    case h_1 e => exact fail_move x rfl rfl h
    case h_2 =>
      rw [Option.ite_none_right_eq_some, Option.some.injEq, Prod.mk.injEq] at h
      rcases h with ⟨hnone, rfl, rfl⟩
      exact .missing env m hnone
    case h_3 w =>
      rw [Option.ite_none_right_eq_some, Option.some.injEq, Prod.mk.injEq] at h
      rcases h with ⟨hmem, rfl, rfl⟩
      exact .found env m w hmem
  case h_3 env m reply =>
    split at h
    case h_1 e => exact fail_move x rfl rfl h
    case h_2 =>
      rw [Option.ite_none_right_eq_some, Option.some.injEq, Prod.mk.injEq] at h
      rcases h with ⟨_, rfl, rfl⟩
      exact .created env m
  case h_4 env m wsID reply =>
    split at h
    case h_1 e => exact fail_move x rfl rfl h
    case h_2 =>
      rw [Option.ite_none_right_eq_some, Option.some.injEq, Prod.mk.injEq] at h
      rcases h with ⟨_, rfl, rfl⟩
      exact .inserted env m wsID
  case h_5 m wsID reply effective =>
    split at h
    case h_1 =>
      cases h
      exact .committed m wsID none _
    case h_2 => cases h
    case h_3 e =>
      cases h
      exact .committed m wsID (some e) _
    case h_4 e => exact fail_move x rfl rfl h
  case h_6 =>
    rw [Option.ite_none_right_eq_some, Option.some.injEq, Prod.mk.injEq] at h
    rcases h with ⟨hopen, rfl, rfl⟩
    exact .ended _ _ _ hopen rfl rfl
  case h_7 => cases h

/-- One statement of a run. -/
theorem step_move {s s' : MintState} {e : MintEvent} (h : x.step s e = some s') :
    ∃ phase' T', MintMove x e.call s.tables (s.phase e.call) e.act phase' T' ∧
      s' = { tables := T', phase := Function.update s.phase e.call phase' } := by
  rw [Minting.step, Option.map_eq_some_iff] at h
  rcases h with ⟨⟨phase', T'⟩, hcall, rfl⟩
  exact ⟨phase', T', callStep_move x hcall, rfl⟩

end Step

/-! ### What the events say -/

/-- What the lookup of call `i` was answered, if the event is that. -/
def MintEvent.answerOf (i : Nat) (e : MintEvent) : Option (Option Uuid) :=
  match e.act with
  | .lookup (.ok a) => if e.call = i then some a else none
  | _ => none

/-- The answers call `i` got. -/
def answers (es : List MintEvent) (i : Nat) : List (Option Uuid) :=
  es.filterMap (MintEvent.answerOf i)

/-- A commit of call `i` took effect. -/
def Commits (es : List MintEvent) (i : Nat) : Prop :=
  ∃ reply, ⟨i, .commit reply true⟩ ∈ es

variable (es : List MintEvent) (i : Nat) {act : MintAct}

theorem answers_snoc (e : MintEvent) (j : Nat) :
    answers (es ++ [e]) j = answers es j ++ (e.answerOf j).toList := by
  unfold answers
  rw [List.filterMap_append, List.filterMap_cons]
  cases e.answerOf j <;> rfl

theorem answers_other {es : List MintEvent} {i j : Nat} {act : MintAct} (h : j ≠ i) :
    answers (es ++ [⟨i, act⟩]) j = answers es j := by
  have hnone : MintEvent.answerOf j ⟨i, act⟩ = none := by
    unfold MintEvent.answerOf
    split
    · exact if_neg (fun heq => h heq.symm)
    · rfl
  rw [answers_snoc, hnone]
  exact List.append_nil _

theorem answers_of_ne (h : ∀ a, act ≠ .lookup (.ok a)) (j : Nat) :
    answers (es ++ [⟨i, act⟩]) j = answers es j := by
  have hnone : MintEvent.answerOf j ⟨i, act⟩ = none := by
    unfold MintEvent.answerOf
    split
    · rename_i a ha
      exact absurd ha (h a)
    · rfl
  rw [answers_snoc, hnone]
  exact List.append_nil _

theorem answers_lookup (a : Option Uuid) :
    answers (es ++ [⟨i, .lookup (.ok a)⟩]) i = answers es i ++ [a] := by
  have hsome : MintEvent.answerOf i ⟨i, .lookup (.ok a)⟩ = some a := if_pos rfl
  rw [answers_snoc, hsome]
  rfl

theorem commits_snoc (e : MintEvent) (j : Nat) :
    Commits (es ++ [e]) j ↔ Commits es j ∨ ∃ reply, e = ⟨j, .commit reply true⟩ := by
  unfold Commits
  constructor
  · rintro ⟨reply, h⟩
    rcases List.mem_append.mp h with h | h
    · exact .inl ⟨reply, h⟩
    · exact .inr ⟨reply, (List.mem_singleton.mp h).symm⟩
  · rintro (⟨reply, h⟩ | ⟨reply, rfl⟩)
    · exact ⟨reply, List.mem_append_left _ h⟩
    · exact ⟨reply, List.mem_append_right _ (List.mem_singleton.mpr rfl)⟩

theorem commits_of_ne (h : ∀ reply, act ≠ .commit reply true) (j : Nat) :
    Commits (es ++ [⟨i, act⟩]) j ↔ Commits es j := by
  rw [commits_snoc, or_iff_left]
  rintro ⟨reply, heq⟩
  rw [MintEvent.mk.injEq] at heq
  exact h reply heq.2

/-- A quiet event tells nothing. -/
theorem quiet_snoc (h : act.isQuiet = true) (j : Nat) :
    answers (es ++ [⟨i, act⟩]) j = answers es j ∧
      (Commits (es ++ [⟨i, act⟩]) j ↔ Commits es j) := by
  constructor
  · refine answers_of_ne es i (fun a heq => ?_) j
    rw [heq] at h
    exact absurd h Bool.false_ne_true
  · refine commits_of_ne es i (fun reply heq => ?_) j
    rw [heq] at h
    exact absurd h Bool.false_ne_true

/-! ### What holds along a run -/

section Trace

variable (x : Minting)

/-- The workspace of a call is the one its lookup was answered with, or its own
    if there was none. -/
def Chose (es : List MintEvent) (i : Nat) (w : Uuid) : Prop :=
  answers es i = [some w] ∨ (answers es i = [none] ∧ w = (x.calls i).fresh)

/-- The call has a workspace, and has inserted it if it is its own. -/
def HasWorkspace (es : List MintEvent) (T : MintTables) (i : Nat) (w : Uuid) : Prop :=
  (answers es i = [some w] ∧ T.workspaces.own i = []) ∨
    (answers es i = [none] ∧ w = (x.calls i).fresh ∧ T.workspaces.own i = [(w, x.workspace)])

/-- What a call has been answered and has inserted, at each of its statements. -/
def CallHolds (es : List MintEvent) (T : MintTables) (i : Nat) : MintPhase → Prop
  | .idle => answers es i = [] ∧ T.workspaces.own i = [] ∧ T.keys.own i = []
  | .begun _ _ => answers es i = [] ∧ T.workspaces.own i = [] ∧ T.keys.own i = []
  | .missing _ _ => answers es i = [none] ∧ T.workspaces.own i = [] ∧ T.keys.own i = []
  | .ready _ _ w => HasWorkspace x es T i w ∧ T.keys.own i = []
  | .inserted m w => HasWorkspace x es T i w ∧
      ∃ row, T.keys.own i = [(m.id, row)] ∧ row.workspaceID = w
  | .returned _ => (answers es i).length ≤ 1 ∧ T.workspaces.own i = [] ∧ T.keys.own i = []
  | .dead => (answers es i).length ≤ 1 ∧ T.workspaces.own i = [] ∧ T.keys.own i = []

/-- What the events so far say about the calls and the tables. -/
structure MintTraced (start : MintState) (es : List MintEvent) (s : MintState) : Prop where
  call : ∀ i, CallHolds x es s.tables i (s.phase i)
  ended : ∀ i, Commits es i → (s.phase i).isOver = true
  found : ∀ i w, some w ∈ answers es i → (w, x.workspace) ∈ s.tables.workspaces.rows
  unnamed : ∀ i, none ∈ answers es i → ∀ r ∈ start.tables.workspaces.rows, r.2 ≠ x.workspace
  created : ∃ W, s.tables.workspaces.rows = start.tables.workspaces.rows ++ W ∧
    (∀ r ∈ W, r.2 = x.workspace ∧ ∃ i, Commits es i ∧ answers es i = [none]) ∧
    ∀ i, Commits es i → answers es i = [none] → ((x.calls i).fresh, x.workspace) ∈ W
  minted : ∃ K, s.tables.keys.rows = start.tables.keys.rows ++ K ∧
    (∀ r ∈ K, ∃ i, Commits es i ∧ Chose x es i r.2.workspaceID) ∧
    ∀ i, Commits es i → ∃ r ∈ K, Chose x es i r.2.workspaceID

variable {x}

variable {start : MintState} {es : List MintEvent} {s : MintState} {T : MintTables}
  {es' : List MintEvent} {i : Nat} {w : Uuid}

theorem HasWorkspace.answers_le (h : HasWorkspace x es T i w) : (answers es i).length ≤ 1 := by
  rcases h with ⟨heq, _⟩ | ⟨heq, _⟩
  · rw [heq]
    exact Nat.le_refl 1
  · rw [heq]
    exact Nat.le_refl 1

theorem HasWorkspace.chose (h : HasWorkspace x es T i w) : Chose x es i w := by
  rcases h with ⟨heq, _⟩ | ⟨heq, hfresh, _⟩
  · exact .inl heq
  · exact .inr ⟨heq, hfresh⟩

/-- The calls of others do not notice. -/
theorem CallHolds.congr {T T' : MintTables} {i : Nat} {phase : MintPhase}
    (h : CallHolds x es T i phase) (hanswers : answers es' i = answers es i)
    (hws : T'.workspaces.own i = T.workspaces.own i) (hkeys : T'.keys.own i = T.keys.own i) :
    CallHolds x es' T' i phase := by
  cases phase <;> simpa only [CallHolds, HasWorkspace, hanswers, hws, hkeys] using h

/-- A statement of one call leaves what is known about the others. -/
theorem callHolds_update {T T' : MintTables} {phase : Nat → MintPhase} {phase' : MintPhase}
    {i : Nat} (h : ∀ j, CallHolds x es T j (phase j))
    (hanswers : ∀ j ≠ i, answers es' j = answers es j)
    (hother : ∀ j ≠ i, T'.workspaces.own j = T.workspaces.own j ∧ T'.keys.own j = T.keys.own j)
    (hcall : CallHolds x es' T' i phase') (j : Nat) :
    CallHolds x es' T' j (Function.update phase i phase' j) := by
  by_cases hj : j = i
  · subst hj
    rw [Function.update_self]
    exact hcall
  · rw [Function.update_of_ne hj]
    exact (h j).congr (hanswers j hj) (hother j hj).1 (hother j hj).2

/-- A call whose commit took effect is not one that goes on. -/
theorem ne_of_commits {phase : Nat → MintPhase} {i j : Nat}
    (h : ∀ j, Commits es j → (phase j).isOver = true) (hphase : (phase i).isOver = false)
    (hj : Commits es j) : j ≠ i := by
  rintro rfl
  exact absurd (hphase.symm.trans (h j hj)) Bool.false_ne_true

theorem over_update {phase : Nat → MintPhase} {phase' : MintPhase} {i j : Nat}
    (h : ∀ j, Commits es j → (phase j).isOver = true) (hphase : (phase i).isOver = false)
    (hj : Commits es j) : (Function.update phase i phase' j).isOver = true := by
  rw [Function.update_of_ne (ne_of_commits h hphase hj)]
  exact h j hj

/-- A statement that answers no lookup and commits nothing changes what is known
    about its own call only. -/
theorem MintTraced.quiet {es : List MintEvent} {i : Nat} {act : MintAct} {phase' : MintPhase}
    {T' : MintTables} (h : MintTraced x start es s) (hquiet : act.isQuiet = true)
    (hwsRows : T'.workspaces.rows = s.tables.workspaces.rows)
    (hkeyRows : T'.keys.rows = s.tables.keys.rows)
    (hother : ∀ j ≠ i, T'.workspaces.own j = s.tables.workspaces.own j ∧
      T'.keys.own j = s.tables.keys.own j)
    (hphase : (s.phase i).isOver = false) (hcall : CallHolds x es T' i phase') :
    MintTraced x start (es ++ [⟨i, act⟩])
      { tables := T', phase := Function.update s.phase i phase' } := by
  have hanswers := fun j => (quiet_snoc es i hquiet j).1
  have hcommits := fun j => (quiet_snoc es i hquiet j).2
  refine ⟨?_, ?_, ?_, ?_, ?_, ?_⟩
  · exact callHolds_update h.call (fun j _ => hanswers j) hother (hcall.congr (hanswers i) rfl rfl)
  · exact fun j hj => over_update h.ended hphase ((hcommits j).mp hj)
  · intro j w hw
    rw [hanswers] at hw
    change (w, x.workspace) ∈ T'.workspaces.rows
    rw [hwsRows]
    exact h.found j w hw
  · intro j hj
    rw [hanswers] at hj
    exact h.unnamed j hj
  · simp only [hwsRows, hcommits, hanswers]
    exact h.created
  · simp only [hkeyRows, hcommits, Chose, hanswers]
    exact h.minted

/-- The answer of a lookup. -/
theorem MintTraced.lookup {es : List MintEvent} {i : Nat} {phase' : MintPhase} {a : Option Uuid}
    (h : MintTraced x start es s) (hphase : (s.phase i).isOver = false)
    (hfound : ∀ w, a = some w → (w, x.workspace) ∈ s.tables.workspaces.rows)
    (hunnamed : a = none → ∀ r ∈ start.tables.workspaces.rows, r.2 ≠ x.workspace)
    (hcall : CallHolds x (es ++ [⟨i, .lookup (.ok a)⟩]) s.tables i phase') :
    MintTraced x start (es ++ [⟨i, .lookup (.ok a)⟩])
      { tables := s.tables, phase := Function.update s.phase i phase' } := by
  have hquiet : ∀ reply, MintAct.lookup (.ok a) ≠ .commit reply true := by
    simp
  have hcommits := commits_of_ne es i hquiet
  have hanswers : ∀ j ≠ i, answers (es ++ [⟨i, .lookup (.ok a)⟩]) j = answers es j :=
    fun j hj => answers_other hj
  -- The calls whose commits took effect are others.
  have hdone : ∀ j, Commits es j → answers (es ++ [⟨i, .lookup (.ok a)⟩]) j = answers es j :=
    fun j hj => hanswers j (ne_of_commits h.ended hphase hj)
  have hmem : ∀ j b, b ∈ answers (es ++ [⟨i, .lookup (.ok a)⟩]) j → b ∈ answers es j ∨ b = a := by
    intro j b hb
    by_cases hj : j = i
    · subst hj
      rw [answers_lookup, List.mem_append, List.mem_singleton] at hb
      exact hb
    · rw [hanswers j hj] at hb
      exact .inl hb
  refine ⟨?_, ?_, ?_, ?_, ?_, ?_⟩
  · exact callHolds_update h.call hanswers (fun _ _ => ⟨rfl, rfl⟩) hcall
  · exact fun j hj => over_update h.ended hphase ((hcommits j).mp hj)
  · intro j w hw
    rcases hmem j _ hw with hold | hnew
    · exact h.found j w hold
    · exact hfound w hnew.symm
  · intro j hj
    rcases hmem j _ hj with hold | hnew
    · exact h.unnamed j hold
    · exact hunnamed hnew.symm
  · obtain ⟨W, hrows, horigin, hcreated⟩ := h.created
    refine ⟨W, hrows, fun r hr => ?_, fun j hj hnone => ?_⟩
    · obtain ⟨hname, j, hj, hnone⟩ := horigin r hr
      exact ⟨hname, j, (hcommits j).mpr hj, (hdone j hj).trans hnone⟩
    · rw [hcommits] at hj
      exact hcreated j hj ((hdone j hj).symm.trans hnone)
  · obtain ⟨K, hrows, horigin, hminted⟩ := h.minted
    refine ⟨K, hrows, fun r hr => ?_, fun j hj => ?_⟩
    · obtain ⟨j, hj, hchose⟩ := horigin r hr
      refine ⟨j, (hcommits j).mpr hj, ?_⟩
      rw [Chose, hdone j hj]
      exact hchose
    · rw [hcommits] at hj
      obtain ⟨r, hr, hchose⟩ := hminted j hj
      refine ⟨r, hr, ?_⟩
      rw [Chose, hdone j hj]
      exact hchose

/-- After a commit, the new workspaces are those from before and the one the call
    has inserted, if it has. -/
theorem MintTraced.created_commit {es es' : List MintEvent} {i : Nat} {w : Uuid}
    (h : MintTraced x start es s) (hworkspace : HasWorkspace x es s.tables i w)
    (hanswers : ∀ j, answers es' j = answers es j)
    (hcommits : ∀ j, Commits es' j ↔ Commits es j ∨ j = i) :
    ∃ W, (s.tables.commit i).workspaces.rows = start.tables.workspaces.rows ++ W ∧
      (∀ r ∈ W, r.2 = x.workspace ∧ ∃ i, Commits es' i ∧ answers es' i = [none]) ∧
      ∀ i, Commits es' i → answers es' i = [none] → ((x.calls i).fresh, x.workspace) ∈ W := by
  obtain ⟨W, hrows, horigin, hcreated⟩ := h.created
  refine ⟨W ++ s.tables.workspaces.own i, ?_, ?_, ?_⟩
  · change s.tables.workspaces.rows ++ s.tables.workspaces.own i = _
    rw [hrows, List.append_assoc]
  · intro r hr
    rcases List.mem_append.mp hr with hr | hr
    · obtain ⟨hname, j, hj, hnone⟩ := horigin r hr
      exact ⟨hname, j, (hcommits j).mpr (.inl hj), (hanswers j).trans hnone⟩
    · rcases hworkspace with ⟨_, hown⟩ | ⟨heq, _, hown⟩
      · -- The call found its workspace, and has no row of its own.
        rw [hown] at hr
        exact absurd hr List.not_mem_nil
      · rw [hown, List.mem_singleton] at hr
        subst hr
        exact ⟨rfl, i, (hcommits i).mpr (.inr rfl), (hanswers i).trans heq⟩
  · intro j hj hnone
    rw [hanswers] at hnone
    rcases (hcommits j).mp hj with hold | rfl
    · exact List.mem_append_left _ (hcreated j hold hnone)
    · rcases hworkspace with ⟨heq, _⟩ | ⟨_, hfresh, hown⟩
      · rw [heq] at hnone
        cases hnone
      · rw [hown, ← hfresh]
        exact List.mem_append_right _ (List.mem_singleton.mpr rfl)

/-- After a commit, the new keys are those from before and the one of the call. -/
theorem MintTraced.minted_commit {es es' : List MintEvent} {i : Nat} {id : Uuid} {row : KeyRow}
    (h : MintTraced x start es s) (hrow : s.tables.keys.own i = [(id, row)])
    (hchose : Chose x es i row.workspaceID) (hanswers : ∀ j, answers es' j = answers es j)
    (hcommits : ∀ j, Commits es' j ↔ Commits es j ∨ j = i) :
    ∃ K, (s.tables.commit i).keys.rows = start.tables.keys.rows ++ K ∧
      (∀ r ∈ K, ∃ i, Commits es' i ∧ Chose x es' i r.2.workspaceID) ∧
      ∀ i, Commits es' i → ∃ r ∈ K, Chose x es' i r.2.workspaceID := by
  obtain ⟨K, hrows, horigin, hminted⟩ := h.minted
  -- A commit answers no lookup, so the choices are those from before.
  have hchoices : ∀ j w, Chose x es' j w ↔ Chose x es j w := by
    intro j w
    rw [Chose, hanswers, Chose]
  refine ⟨K ++ [(id, row)], ?_, ?_, ?_⟩
  · change s.tables.keys.rows ++ s.tables.keys.own i = _
    rw [hrows, hrow, List.append_assoc]
  · intro r hr
    rcases List.mem_append.mp hr with hr | hr
    · obtain ⟨j, hj, hc⟩ := horigin r hr
      exact ⟨j, (hcommits j).mpr (.inl hj), (hchoices j _).mpr hc⟩
    · rw [List.mem_singleton] at hr
      subst hr
      exact ⟨i, (hcommits i).mpr (.inr rfl), (hchoices i _).mpr hchose⟩
  · intro j hj
    rcases (hcommits j).mp hj with hold | rfl
    · obtain ⟨r, hr, hc⟩ := hminted j hold
      exact ⟨r, List.mem_append_left _ hr, (hchoices j _).mpr hc⟩
    · exact ⟨_, List.mem_append_right _ (List.mem_singleton.mpr rfl), (hchoices j _).mpr hchose⟩

/-- A commit that takes effect. -/
theorem MintTraced.commit {es : List MintEvent} {i : Nat} {m : Minted} {w : Uuid}
    {reply : Option DbError} {result : Except Failure String} (h : MintTraced x start es s)
    (hphase : s.phase i = .inserted m w) : MintTraced x start (es ++ [⟨i, .commit reply true⟩])
      { tables := s.tables.commit i, phase := Function.update s.phase i (.returned result) } := by
  have hquiet : ∀ a, MintAct.commit reply true ≠ .lookup (.ok a) := by
    simp
  have hanswers := answers_of_ne es i hquiet
  have hnotOver : (s.phase i).isOver = false := by rw [hphase]; rfl
  have hcall := h.call i
  rw [hphase] at hcall
  obtain ⟨hworkspace, row, hrow, rfl⟩ := hcall
  have hcommits : ∀ j, Commits (es ++ [⟨i, .commit reply true⟩]) j ↔ Commits es j ∨ j = i := by
    intro j
    rw [commits_snoc]
    refine or_congr_right ⟨?_, ?_⟩
    · rintro ⟨reply', heq⟩
      exact (MintEvent.mk.inj heq).1.symm
    · rintro rfl
      exact ⟨reply, rfl⟩
  refine ⟨?_, ?_, ?_, ?_, ?_, ?_⟩
  · -- The rows of the call are published, and it has none left.
    refine callHolds_update h.call (fun j _ => hanswers j) (fun j hj => ?_) ?_
    · exact ⟨Table.own_commit_of_ne _ hj, Table.own_commit_of_ne _ hj⟩
    · rw [CallHolds, hanswers]
      exact ⟨hworkspace.answers_le, Table.own_commit_self _ i, Table.own_commit_self _ i⟩
  · intro j hj
    rcases (hcommits j).mp hj with hold | rfl
    · exact over_update h.ended hnotOver hold
    · change (Function.update s.phase j (.returned result) j).isOver = true
      rw [Function.update_self]
      rfl
  · intro j w' hw'
    rw [hanswers] at hw'
    exact List.mem_append_left _ (h.found j w' hw')
  · intro j hj
    rw [hanswers] at hj
    exact h.unnamed j hj
  · exact h.created_commit hworkspace hanswers hcommits
  · exact h.minted_commit hrow hworkspace.chose hanswers hcommits

theorem mem_named (x : Minting) (T : MintTables) (i : Nat) (w : Uuid) :
    w ∈ x.named T i ↔ (w, x.workspace) ∈ T.workspaces.visible i := by
  unfold Minting.named
  rw [List.mem_map]
  constructor
  · rintro ⟨r, hr, rfl⟩
    rw [List.mem_filter, decide_eq_true_eq] at hr
    rw [← hr.2]
    exact hr.1
  · intro hw
    exact ⟨(w, x.workspace), List.mem_filter.mpr ⟨hw, decide_eq_true rfl⟩, rfl⟩

/-- A call is answered one lookup at most. -/
theorem CallHolds.answers_le {phase : MintPhase} (h : CallHolds x es T i phase) :
    (answers es i).length ≤ 1 := by
  cases phase with
  | idle | begun => rw [h.1]; exact Nat.zero_le 1
  | missing => rw [h.1]; exact Nat.le_refl 1
  | ready | inserted => exact h.1.answers_le
  | returned | dead => exact h.1

theorem callHolds_over {phase : MintPhase} (hover : phase.isOver = true)
    (hanswers : (answers es i).length ≤ 1) (hws : T.workspaces.own i = [])
    (hkeys : T.keys.own i = []) : CallHolds x es T i phase := by
  cases phase with
  | returned | dead => exact ⟨hanswers, hws, hkeys⟩
  | _ => exact absurd hover Bool.false_ne_true

theorem isOver_of_isOpen {phase : MintPhase} (h : phase.isOpen = true) : phase.isOver = false := by
  cases phase with
  | idle | returned | dead => exact absurd h Bool.false_ne_true
  | _ => rfl

theorem mintTraced_start (workspaces : List (Uuid × String)) (keys : List (Uuid × KeyRow)) :
    MintTraced x (.start workspaces keys) [] (.start workspaces keys) := by
  have hnone : ∀ i, ¬ Commits [] i := fun i h => absurd h.choose_spec List.not_mem_nil
  refine ⟨fun i => ⟨rfl, rfl, rfl⟩, fun i h => absurd h (hnone i), ?_, ?_, ?_, ?_⟩
  · exact fun i w h => absurd h List.not_mem_nil
  · exact fun i h => absurd h List.not_mem_nil
  · exact ⟨[], (List.append_nil _).symm, fun r hr => absurd hr List.not_mem_nil,
      fun i h => absurd h (hnone i)⟩
  · exact ⟨[], (List.append_nil _).symm, fun r hr => absurd hr List.not_mem_nil,
      fun i h => absurd h (hnone i)⟩

/-- One statement. -/
theorem mintTraced_step {s' : MintState} {es : List MintEvent} {e : MintEvent}
    (h : MintTraced x start es s) (hstep : x.step s e = some s') :
    MintTraced x start (es ++ [e]) s' := by
  obtain ⟨i, act⟩ := e
  obtain ⟨phase', T', hmove, rfl⟩ := step_move x hstep
  have hcall := h.call i
  have hsame : ∀ j ≠ i, s.tables.workspaces.own j = s.tables.workspaces.own j ∧
      s.tables.keys.own j = s.tables.keys.own j := fun _ _ => ⟨rfl, rfl⟩
  dsimp only at hmove ⊢
  generalize hphase : s.phase i = phase at hmove hcall
  cases hmove with
  | refused =>
    -- The call returns before it has a transaction.
    refine h.quiet rfl rfl rfl hsame (by rw [hphase]; rfl) ?_
    exact callHolds_over rfl hcall.answers_le hcall.2.1 hcall.2.2
  | begun => exact h.quiet rfl rfl rfl hsame (by rw [hphase]; rfl) hcall
  | ended _ _ _ hopen hover hquiet =>
    refine h.quiet hquiet rfl rfl (fun j hj => ?_) (by rw [hphase]; exact isOver_of_isOpen hopen) ?_
    · exact ⟨Table.own_rollback_of_ne _ hj, Table.own_rollback_of_ne _ hj⟩
    · exact callHolds_over hover hcall.answers_le (Table.own_rollback_self _ i)
        (Table.own_rollback_self _ i)
  | missing env m hnone =>
    refine h.lookup (by rw [hphase]; rfl) ?_ (fun _ r hr hname => ?_) ?_
    · exact fun w hw => nomatch hw
    · -- A row of the start is still there, and the lookup would have seen it.
      obtain ⟨W, hrows, _⟩ := h.created
      have hmem : r.1 ∈ x.named s.tables i := by
        rw [mem_named, ← hname]
        refine List.mem_append_left _ ?_
        rw [hrows]
        exact List.mem_append_left _ hr
      rw [hnone] at hmem
      exact absurd hmem List.not_mem_nil
    · rw [CallHolds, answers_lookup, hcall.1]
      exact ⟨rfl, hcall.2⟩
  | found env m w hmem =>
    refine h.lookup (by rw [hphase]; rfl) (fun w' hw' => ?_) ?_ ?_
    · -- The call has inserted nothing yet, so what it sees is committed.
      cases hw'
      rw [mem_named, Table.visible, hcall.2.1, List.append_nil] at hmem
      exact hmem
    · exact fun hnone => nomatch hnone
    · refine ⟨.inl ⟨?_, hcall.2.1⟩, hcall.2.2⟩
      rw [answers_lookup, hcall.1]
      rfl
  | created =>
    refine h.quiet rfl rfl rfl (fun j hj => ⟨Table.own_insert_of_ne _ hj _ _, rfl⟩)
      (by rw [hphase]; rfl) ⟨.inr ⟨hcall.1, rfl, ?_⟩, hcall.2.2⟩
    rw [Table.own_insert_self, hcall.2.1]
    rfl
  | inserted env m w =>
    refine h.quiet rfl rfl rfl (fun j hj => ⟨rfl, Table.own_insert_of_ne _ hj _ _⟩)
      (by rw [hphase]; rfl) ⟨hcall.1, mintedRow w env m (x.calls i).pgRole, ?_, rfl⟩
    rw [Table.own_insert_self, hcall.2]
    rfl
  | committed => exact h.commit hphase

/-- A whole run. -/
theorem mintTraced_run (workspaces : List (Uuid × String)) (keys : List (Uuid × KeyRow))
    (es : List MintEvent) (s : MintState)
    (hrun : run x.step (.start workspaces keys) es = some s) :
    MintTraced x (.start workspaces keys) es s :=
  Transition.run_trace_invariant (MintTraced x (.start workspaces keys))
    (mintTraced_start workspaces keys) (fun _ _ _ _ _ h _ ht => mintTraced_step h ht) es s
    Transition.allowed_true hrun

end Trace

end CoopDB
