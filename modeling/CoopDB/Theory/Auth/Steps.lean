import CoopDB.Core.Auth
import CoopDB.Theory.Keys.Operations

/-!
# What One Step of Authentication Can Do

The inversion of `authMove`. The results about rotation and the verify cache are
case analyses over `AuthMoved` and never unfold the step function again.

Transitions that differ in nothing a result could depend on share a case:
`refused` is every way in which authentication ends without a rotation, and
`aborted` every way in which a rotation ends without a commit.

## Main definitions

* `AuthMoved`: The transitions, each with the phase it starts from and what it leaves.

## Theorems

* `resolveStep_moved`, `rotateStep_moved`, `callStep_moved`: The steps of one call are
  transitions.
* `authMove_moved`, `authStep_moved`: Every step is one, and is counted.
-/

namespace CoopDB

open ReadCommitted (Table)

theorem AuthState.goto_self (s : AuthState) (c : CallId) (p : AuthPhase) :
    ((s.goto c p).calls c).phase = p := by
  simp [AuthState.goto]

theorem AuthState.goto_of_ne (s : AuthState) (c c' : CallId) (p : AuthPhase) (h : c' ≠ c) :
    (s.goto c p).calls c' = s.calls c' := by
  simp only [AuthState.goto, Function.update_of_ne h]

section

variable (d : AuthDeployment)

/-- The transitions from a state. -/
inductive AuthMoved (s : AuthState) : AuthEvent → AuthState → Prop
  | ticked (t : Nat) : AuthMoved s (.tick t) { s with now := s.now + t }
  | rested (e : AuthEvent) : AuthMoved s e s
  | created (mint : Except String Minted) (db : CreateReplies) (input : CreateKeyInput)
      (id : Uuid) (row : KeyRow) (hfree : s.keys.committed id = none)
      (hlock : s.keys.pending id = none) (hreplaces : row.replacesKeyID = none) :
      AuthMoved s (.create mint db input)
        { s with keys :=
            { s.keys with committed := Function.update s.keys.committed id (some row) } }
  | revoked (id : String) (db : Option DbError) (u : Uuid) (T : Table Uuid CallId KeyRow)
      (hu : d.externals.uuidParse id = .ok u)
      (hT : s.keys.updateNow u (revokeRow s.now) = some T) :
      AuthMoved s (.revoke id db) { s with keys := T }
  | dropped (token : String) : AuthMoved s (.evict token) { s with cache := s.cache.evict token }
  | started (c : CallId) (job : Job) (hidle : (s.calls c).phase = .idle) :
      AuthMoved s (.start c job)
        { s with
          calls := Function.update s.calls c
            { phase := job.phase d.externals, rotates := job.rotates, startedAt := s.events } }
  | hit (c : CallId) (p : ParsedKey) (rec : KeyRecord)
      (hphase : (s.calls c).phase = .resolve p .get)
      (hget : (s.cache.get (d.externals.cacheKey p.fullToken) s.now).1 = some rec) :
      AuthMoved s (.call c .next)
        ({ s with cache := (s.cache.get (d.externals.cacheKey p.fullToken) s.now).2 }.goto c
          (.resolved rec (s.cachedRead (d.externals.cacheKey p.fullToken))))
  | missed (c : CallId) (p : ParsedKey) (hphase : (s.calls c).phase = .resolve p .get) :
      AuthMoved s (.call c .next)
        ({ s with cache := (s.cache.get (d.externals.cacheKey p.fullToken) s.now).2 }.goto c
          (.resolve p .find))
  | found (c : CallId) (p : ParsedKey) (u : Uuid) (row : KeyRow)
      (hphase : (s.calls c).phase = .resolve p .find) (hrow : s.keys.committed u = some row)
      (hkey : row.keyID = p.keyID) :
      AuthMoved s (.call c (.found u))
        (s.goto c (.resolve p (.verify (row.record d.externals.toKeyExternals u) s.events)))
  | verified (c : CallId) (p : ParsedKey) (rec : KeyRecord) (readAt : Nat)
      (hphase : (s.calls c).phase = .resolve p (.verify rec readAt))
      (hok : d.externals.verifySecret p.secret rec.secretHash = true) :
      AuthMoved s (.call c .next) (s.goto c (.resolve p (.put rec readAt)))
  | cached (c : CallId) (p : ParsedKey) (rec : KeyRecord) (readAt : Nat)
      (hphase : (s.calls c).phase = .resolve p (.put rec readAt)) :
      AuthMoved s (.call c .next)
        ({ s with
            cache := s.cache.put (d.externals.cacheKey p.fullToken) rec s.now
            cachedRead := Function.update s.cachedRead (d.externals.cacheKey p.fullToken) readAt
            }.goto c (.resolved rec readAt))
  | refused (c : CallId) (act : AuthAct) (refusal : Option ResolveError)
      (hphase : ∀ r stage, (s.calls c).phase ≠ .rotate r stage) :
      AuthMoved s (.call c act) (s.goto c (.over refusal))
  | authorized (c : CallId) (rec : KeyRecord) (readAt : Nat) (u : Uuid)
      (hphase : (s.calls c).phase = .resolved rec readAt) (hactive : rec.active s.now = true)
      (hu : d.externals.uuidParse rec.id = .ok u) :
      AuthMoved s (.call c .next)
        (s.goto c (.rotate
          { id := rec.id, old := u, overlap := d.keyRotateOverlap, fromRequest := true } .begin))
  | began (c : CallId) (r : Rotation) (hphase : (s.calls c).phase = .rotate r .begin) :
      AuthMoved s (.call c .next) (s.goto c (.rotate r (.select s.now)))
  | selected (c : CallId) (r : Rotation) (start : Time) (old : KeyRow)
      (hphase : (s.calls c).phase = .rotate r (.select start))
      (hold : s.keys.visible c r.old = some old) :
      AuthMoved s (.call c .next) (s.goto c (.rotate r (.insert start old)))
  | inserted (c : CallId) (r : Rotation) (start : Time) (old : KeyRow) (m : Minted)
      (hphase : (s.calls c).phase = .rotate r (.insert start old))
      (hfree : s.keys.free c m.id = true) (hnone : s.keys.visible c m.id = none) :
      AuthMoved s (.call c (.mint (.ok m)))
        ({ s with keys := s.keys.write c m.id (some (successorRow r.old old m)) }.goto c
          (.rotate r (.update start)))
  | updated (c : CallId) (r : Rotation) (start : Time) (T : Table Uuid CallId KeyRow)
      (hphase : (s.calls c).phase = .rotate r (.update start))
      (hT : s.keys.update c r.old (scheduleExpiry start r.overlap) = some T) :
      AuthMoved s (.call c .next) ({ s with keys := T }.goto c (.rotate r .commit))
  | committed (c : CallId) (r : Rotation) (act : AuthAct) (next : AuthPhase)
      (hphase : (s.calls c).phase = .rotate r .commit) (hact : act ≠ .fail)
      (hnext : next = .over none ∨ (r.fromRequest = true ∧ next = .evict r.id s.events)) :
      AuthMoved s (.call c act) ({ s with keys := s.keys.commit c }.goto c next)
  | aborted (c : CallId) (r : Rotation) (stage : RotateStage) (act : AuthAct)
      (hphase : (s.calls c).phase = .rotate r stage) : AuthMoved s (.call c act) (s.abort c)
  | flagged (c : CallId) (id : String) (committedAt : Nat)
      (hphase : (s.calls c).phase = .evict id committedAt) :
      AuthMoved s (.call c .next)
        ({ s with
            cache := s.cache.revokeByDBID id
            evictions :=
              { id := id, committedAt := committedAt, evictedAt := s.events } :: s.evictions
            }.goto c (.over none))

variable (s s' : AuthState)

/-- A call of `resolve` is one of the transitions. -/
theorem resolveStep_moved {c : CallId} {p : ParsedKey} {stage : ResolveStage} {act : AuthAct}
    (hphase : (s.calls c).phase = .resolve p stage)
    (h : resolveStep d.externals s c p stage act = some s') : AuthMoved d s (.call c act) s' := by
  have hrefused : ∀ refusal, some (s.goto c (.over refusal)) = some s' →
      AuthMoved d s (.call c act) s' := by
    intro refusal heq
    rw [← Option.some.inj heq]
    exact .refused c act refusal (fun r stage' h' => by rw [hphase] at h'; cases h')
  -- Cache, row, hash, cache again. No row or another hash refuses.
  unfold resolveStep at h
  split at h
  case h_1 =>
    cases hget : (s.cache.get (d.externals.cacheKey p.fullToken) s.now).1 with
    | some rec =>
      simp only [hget, Option.some.injEq] at h
      rw [← h]
      exact .hit c p rec hphase hget
    | none =>
      simp only [hget, Option.some.injEq] at h
      rw [← h]
      exact .missed c p hphase
  case h_2 u =>
    cases hrow : s.keys.committed u with
    | none =>
      rw [hrow] at h
      cases h
    | some row =>
      simp only [hrow, Option.ite_none_right_eq_some, Option.some.injEq] at h
      rw [← h.2]
      exact .found c p u row hphase hrow h.1
  case h_3 => exact hrefused _ h
  case h_4 rec readAt =>
    by_cases hok : d.externals.verifySecret p.secret rec.secretHash = true
    · rw [if_pos hok, Option.some.injEq] at h
      rw [← h]
      exact .verified c p rec readAt hphase hok
    · rw [if_neg hok] at h
      exact hrefused _ h
  case h_5 rec readAt =>
    simp only [Option.some.injEq] at h
    rw [← h]
    exact .cached c p rec readAt hphase
  case h_6 => cases h

/-- A call of `Rotate` is one of the transitions. -/
theorem rotateStep_moved {c : CallId} {r : Rotation} {stage : RotateStage} {act : AuthAct}
    (hphase : (s.calls c).phase = .rotate r stage) (h : rotateStep s c r stage act = some s') :
    AuthMoved d s (.call c act) s' := by
  have haborted : some (s.abort c) = some s' → AuthMoved d s (.call c act) s' := by
    intro heq
    rw [← Option.some.inj heq]
    exact .aborted c r stage act hphase
  -- The cases in the order of the stages; what aborts is the same everywhere.
  unfold rotateStep at h
  split at h
  case h_1 => exact haborted h
  case h_2 =>
    rw [← Option.some.inj h]
    exact .began c r hphase
  case h_3 start =>
    cases hv : s.keys.visible c r.old with
    | none =>
      rw [hv] at h
      exact haborted h
    | some old =>
      simp only [hv, Option.some.injEq] at h
      rw [← h]
      exact .selected c r start old hphase hv
  case h_4 => exact haborted h
  case h_5 start old m =>
    cases hins : s.keys.insertOnConflictDoNothing c m.id (successorRow r.old old m) with
    | none => rw [hins] at h; cases h
    | some q =>
      rcases q with ⟨T, b⟩
      rcases Table.insertOnConflictDoNothing_cases s.keys T hins with
        ⟨hfree, ⟨hb, _, _⟩ | ⟨hb, hT, hnone⟩⟩
      · simp only [hins, hb] at h
        exact haborted h
      · simp only [hins, hb, Option.some.injEq] at h
        rw [← h, hT]
        exact .inserted c r start old m hphase hfree hnone
  case h_6 start =>
    rcases Option.map_eq_some_iff.mp h with ⟨T, hT, hs⟩
    rw [← hs]
    exact .updated c r start T hphase hT
  case h_7 =>
    rw [← Option.some.inj h]
    refine .committed c r _ _ hphase (by simp) ?_
    by_cases hreq : r.fromRequest = true
    · rw [if_pos hreq]
      exact .inr ⟨hreq, rfl⟩
    · rw [if_neg hreq]
      exact .inl rfl
  case h_8 =>
    rw [← Option.some.inj h]
    exact .committed c r _ _ hphase (by simp) (.inl rfl)
  case h_9 => cases h

/-- A step of one call is one of the transitions. -/
theorem callStep_moved (c : CallId) (act : AuthAct) (h : callStep d s c act = some s') :
    AuthMoved d s (.call c act) s' := by
  unfold callStep at h
  split at h
  case h_1 p stage hphase => exact resolveStep_moved d s s' hphase h
  case h_2 rec readAt hphase =>
    have hrefused : ∀ next, next = AuthPhase.over none → some (s.goto c next) = some s' →
        AuthMoved d s (.call c .next) s' := by
      intro next hnext heq
      rw [← Option.some.inj heq, hnext]
      exact .refused c _ none (fun r stage h' => by rw [hphase] at h'; cases h')
    unfold authorized at h
    cases hgo : rec.active s.now && (s.calls c).rotates with
    | false =>
      simp only [hgo, Bool.false_eq_true, if_false] at h
      exact hrefused (.over none) rfl h
    | true =>
      simp only [hgo, if_true] at h
      cases hu : d.externals.uuidParse rec.id with
      | error =>
        rw [hu] at h
        exact hrefused (.over none) rfl h
      | ok u =>
        simp only [hu, Option.some.injEq] at h
        rw [← h]
        exact .authorized c rec readAt u hphase (Bool.and_eq_true_iff.mp hgo).1 hu
  case h_3 r stage hphase => exact rotateStep_moved d s s' hphase h
  case h_4 id committedAt hphase =>
    rw [← Option.some.inj h]
    exact .flagged c id committedAt hphase
  case h_5 => cases h

/-- `AuthMoved` is everything `authMove` does. -/
theorem authMove_moved (e : AuthEvent) (h : authMove d s e = some s') : AuthMoved d s e s' := by
  cases e with
  | tick t =>
    rw [← Option.some.inj h]
    exact .ticked t
  | create mint db input =>
    simp only [authMove, Option.ite_none_left_eq_some] at h
    rcases h with ⟨hwaits, h⟩
    cases hc : create d.externals.toKeyExternals d.roles mint db s.keys.committed input with
    | error =>
      simp only [hc, Option.some.injEq] at h
      rw [← h]
      exact .rested _
    | ok q =>
      rcases q with ⟨keys, key⟩
      rcases (create_eq_ok d.externals.toKeyExternals d.roles mint db s.keys.committed keys
        input key).mp hc with ⟨env, ws, m, _, _, hm, _, _, _, hfree, hkeys, _⟩
      -- `create` commits at once, so it must not wait for the row.
      have hlock : s.keys.pending m.id = none := by
        simpa only [AuthState.waits, hm, Option.isSome_iff_ne_none, ne_eq, not_not] using hwaits
      simp only [hc, Option.some.injEq, hkeys] at h
      rw [← h]
      exact .created mint db input m.id _ hfree hlock rfl
  | revoke id db =>
    simp only [authMove] at h
    cases hu : d.externals.uuidParse id with
    | error =>
      simp only [hu, Option.some.injEq] at h
      rw [← h]
      exact .rested _
    | ok u =>
      cases db with
      | some =>
        simp only [hu, Option.some.injEq] at h
        rw [← h]
        exact .rested _
      | none =>
        simp only [hu, Option.map_eq_some_iff] at h
        rcases h with ⟨T, hT, hs⟩
        rw [← hs]
        exact .revoked id none u T hu hT
  | evict token =>
    rw [← Option.some.inj h]
    exact .dropped token
  | start c job =>
    simp only [authMove, Option.ite_none_right_eq_some, Option.some.injEq] at h
    rw [← h.2]
    exact .started c job h.1
  | call c act => exact callStep_moved d s s' c act h

theorem authStep_moved {e : AuthEvent} (h : authStep d s e = some s') :
    ∃ t, AuthMoved d s e t ∧ s' = { t with events := s.events + 1 } := by
  rcases Option.map_eq_some_iff.mp h with ⟨t, ht, hs⟩
  exact ⟨t, authMove_moved d s t e ht, hs.symm⟩

end

/-- A deployment to run requests on: every secret is right, and tokens are
    cached as they are. -/
def openDeployment : AuthDeployment :=
  { externals := { letterExternals with verifySecret := fun _ _ => true, cacheKey := fun t => t }
    roles := migratedRoles
    keyRotateOverlap := 10 }

/-- A token of the `dbadmin` key of the table. -/
def adminToken : ParsedKey :=
  { keyID := "key", secret := "secret", fullToken := "token" }

/-- A request with that token, up to the select. -/
def lookUp (c : CallId) (rotates : Bool) : List AuthEvent :=
  [.start c (.request adminToken rotates), .call c .next, .call c (.found 1)]

/-- The rest of its lookup: the hash and the put. -/
def verifyAndPut (c : CallId) : List AuthEvent :=
  [.call c .next, .call c .next]

/-- The rest of a rotation request: it is let in, and its transaction runs with
    a new key of the given id. -/
def rotateTo (c : CallId) (new : Uuid) : List AuthEvent :=
  [.call c .next, .call c .next, .call c .next,
    .call c (.mint (.ok { id := new, keyID := "new", fullToken := "new", secretHash := "hash" })),
    .call c .next, .call c .next]

end CoopDB
