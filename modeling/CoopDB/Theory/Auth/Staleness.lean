import CoopDB.Core.Authenticate
import CoopDB.Theory.Auth.Cache
import CoopDB.Theory.Auth.Steps

/-!
# How Old an Authentication Can Be

A request that is forwarded has a record whose secret was verified, for the very
token it carries. Either the request verified it itself, or it found it in the
cache, and then the lookup that put it there is no further back than the TTL.

The invariant ties each entry of the cache to such a lookup. Entries are stored
under a hash of the token, and the hash is assumed to keep tokens apart.

The TTL is counted back from the moment the request asked the cache. The record
is checked again by a later reading of the clock, when it is forwarded, and that
check is only for revocation and expiry.

## Main definitions

* `ResolvedBy`: A lookup that read, verified and put a record.
* `Warranted`: The reason a request has its record.
* `Traced`: The invariant.

## Theorems

* `parseBearer_determined`: A token determines what is looked up and checked.
* `traced_step`: A step keeps the invariant.
* `resolved_for_token`: A request has its record for its token.
* `forwarded_with_verified_record`: A forwarded request verified its token itself, or
  a lookup within the TTL did.
* `entry_outlives_ttl`: A request that asks at the last moment is forwarded with an
  entry older than the TTL.
-/

namespace CoopDB

open Transition (run)

/-- A parsed token is kept whole. -/
theorem parseToken_fullToken {header : List Char} {p : ParsedKey}
    (h : parseToken header = some p) : p.fullToken = String.ofList header := by
  simp only [parseToken, Option.ite_none_right_eq_some, Option.ite_none_left_eq_some] at h
  rcases h with ⟨_, _, h⟩
  split at h
  case h_2 => cases h
  case h_1 rest _ =>
    rw [Option.ite_none_left_eq_some] at h
    rcases h with ⟨_, h⟩
    split at h
    case h_2 => cases h
    case h_1 keyID secret _ =>
      rw [Option.some.injEq] at h
      rw [← h]

/-- A token determines what is looked up and what is verified. -/
theorem parseBearer_determined {header header' : String} {p p' : ParsedKey}
    (h : parseBearer header = some p) (h' : parseBearer header' = some p')
    (htoken : p.fullToken = p'.fullToken) : p = p' := by
  simp only [parseBearer, Option.ite_none_left_eq_some] at h h'
  rcases h with ⟨_, h⟩
  rcases h' with ⟨_, h'⟩
  rw [parseToken_fullToken h, parseToken_fullToken h'] at htoken
  rw [String.ofList_injective htoken] at h
  exact Option.some.inj (h.symm.trans h')

/-- The call read the record by the key id of the token, verified the secret of
    the token against it, and put it in the cache at this time. -/
def ResolvedBy (done : List Deed) (c : CallId) (p : ParsedKey) (rec : KeyRecord) (time : Time) :
    Prop :=
  .read c p rec ∈ done ∧ .verified c p rec ∈ done ∧ .put c p rec time ∈ done

theorem ResolvedBy.mono (done more : List Deed) (c : CallId) (p : ParsedKey) (rec : KeyRecord)
    (time : Time) (h : ResolvedBy done c p rec time) : ResolvedBy (done ++ more) c p rec time :=
  ⟨List.mem_append_left _ h.1, List.mem_append_left _ h.2.1, List.mem_append_left _ h.2.2⟩

/-- The request resolved the record itself, or got it from the cache, where a
    call with the same token had put it within the TTL before. -/
def Warranted (ttl now : Time) (done : List Deed) (c : CallId) (p : ParsedKey) (rec : KeyRecord) :
    Prop :=
  (∃ time, ResolvedBy done c p rec time) ∨
  ∃ c' looked time, .lookedUp c p rec looked ∈ done ∧ looked ≤ now ∧
    ResolvedBy done c' p rec time ∧ looked - ttl ≤ time

/-- What is known about a request, phase by phase. -/
def PhaseTraced (ttl now : Time) (token : Option ParsedKey) (done : List Deed) (c : CallId) :
    AuthPhase → Prop
  | .resolve p .get | .resolve p .find => token = some p
  | .resolve p (.verify rec _) => token = some p ∧ .read c p rec ∈ done
  | .resolve p (.put rec _) => token = some p ∧ .read c p rec ∈ done ∧ .verified c p rec ∈ done
  | .resolved rec _ => ∃ p, token = some p ∧ Warranted ttl now done c p rec
  | _ => True

/-- What is known stays known. -/
theorem PhaseTraced.mono (ttl now now' : Time) (token : Option ParsedKey) (done more : List Deed)
    (c : CallId) (phase : AuthPhase) (hnow : now ≤ now')
    (h : PhaseTraced ttl now token done c phase) :
    PhaseTraced ttl now' token (done ++ more) c phase := by
  cases phase with
  | resolve p stage =>
    cases stage with
    | get | find => exact h
    | verify => exact ⟨h.1, List.mem_append_left _ h.2⟩
    | put => exact ⟨h.1, List.mem_append_left _ h.2.1, List.mem_append_left _ h.2.2⟩
  | resolved rec =>
    rcases h with ⟨p, htoken, ⟨time, hown⟩ | ⟨c', looked, time, hlooked, hle, hput, httl⟩⟩
    · exact ⟨p, htoken, .inl ⟨time, hown.mono done more c p rec time⟩⟩
    · exact ⟨p, htoken, .inr ⟨c', looked, time, List.mem_append_left _ hlooked,
        Int.le_trans hle hnow, hput.mono done more c' p rec time, httl⟩⟩
  | _ => trivial

section

variable (d : AuthDeployment) (ttl : Time)

/-- An entry has its lookup. -/
def EntryTraced (done : List Deed) (key : String) (v : CachedKey) : Prop :=
  ∃ c p header, parseBearer header = some p ∧ d.externals.cacheKey p.fullToken = key ∧
    ResolvedBy done c p v.record v.verifiedAt

/-- The invariant: every entry of the cache has its lookup, and every request
    its reasons. -/
structure Traced (w : World) : Prop where
  kept : w.auth.cache.ttl = ttl
  parsed : ∀ c p, w.tokens c = some p → ∃ header, parseBearer header = some p
  entries : ∀ key v, w.auth.cache.lru key = some v → EntryTraced d w.done key v
  phases : ∀ c, PhaseTraced ttl w.auth.now (w.tokens c) w.done c (w.auth.calls c).phase

theorem traced_initial (keys : Keys) (now : Time) :
    Traced d (newVerifyCache ttl).ttl (World.initial keys ttl now) where
  kept := rfl
  parsed _ _ h := nomatch h
  entries _ _ h := nomatch h
  phases _ := trivial

variable {d ttl}

theorem Traced.phase_at {w : World} (h : Traced d ttl w) {c : CallId} {phase : AuthPhase}
    (hphase : (w.auth.calls c).phase = phase) :
    PhaseTraced ttl w.auth.now (w.tokens c) w.done c phase :=
  hphase ▸ h.phases c

/-- A step of the process keeps the invariant if what it adds to the cache has
    its lookup, and a request that goes on has its reasons. -/
theorem Traced.advance {w : World} (h : Traced d ttl w) {s : AuthState} {more : List Deed}
    (hnow : w.auth.now ≤ s.now) (httl : s.cache.ttl = w.auth.cache.ttl)
    (hentries : ∀ key v, s.cache.lru key = some v →
      w.auth.cache.lru key = some v ∨ EntryTraced d (w.done ++ more) key v)
    (hphases : ∀ c, (s.calls c).phase = (w.auth.calls c).phase ∨
      PhaseTraced ttl s.now (w.tokens c) (w.done ++ more) c (s.calls c).phase) :
    Traced d ttl { w with auth := s, done := w.done ++ more } where
  kept := httl.trans h.kept
  parsed := h.parsed
  entries key v hv := by
    rcases hentries key v hv with hold | hnew
    · rcases h.entries key v hold with ⟨c, p, header, hparse, hkey, hput⟩
      exact ⟨c, p, header, hparse, hkey, hput.mono w.done more c p v.record v.verifiedAt⟩
    · exact hnew
  phases c := by
    rcases hphases c with hsame | hnew
    · simp only [hsame]
      exact (h.phases c).mono ttl w.auth.now s.now (w.tokens c) w.done more c _ hnow
    · exact hnew

/-- The same where one call goes to another phase. -/
theorem Traced.goto {w : World} (h : Traced d ttl w) (s : AuthState) (n : Nat) {more : List Deed}
    {c : CallId} {phase : AuthPhase} (hnow : w.auth.now ≤ s.now) (hcalls : s.calls = w.auth.calls)
    (httl : s.cache.ttl = w.auth.cache.ttl)
    (hentries : ∀ key v, s.cache.lru key = some v →
      w.auth.cache.lru key = some v ∨ EntryTraced d (w.done ++ more) key v)
    (hphase : PhaseTraced ttl s.now (w.tokens c) (w.done ++ more) c phase) :
    Traced d ttl
      { w with auth := { s.goto c phase with events := n }, done := w.done ++ more } := by
  refine h.advance hnow httl hentries (fun c' => ?_)
  by_cases hc : c' = c
  · subst hc
    refine .inr ?_
    simp only [AuthState.goto, Function.update_self]
    exact hphase
  · refine .inl ?_
    simp only [AuthState.goto, Function.update_of_ne hc, hcalls]

/-- A request that finds its token in the cache finds a record that was put there
    for the same token, not longer ago than the TTL. -/
theorem warranted_of_hit (hinj : Function.Injective d.externals.cacheKey) {w : World}
    (h : Traced d ttl w) {c : CallId} {p : ParsedKey} {rec : KeyRecord}
    (htoken : w.tokens c = some p)
    (hget : (w.auth.cache.get (d.externals.cacheKey p.fullToken) w.auth.now).1 = some rec) :
    Warranted ttl w.auth.now (w.done ++ [.lookedUp c p rec w.auth.now]) c p rec := by
  rcases (w.auth.cache.get_eq_some _ w.auth.now rec).mp hget with ⟨v, hv, rfl, hexp, _⟩
  rcases h.entries _ v hv with ⟨c', p', header', hparse', hkey, hput⟩
  -- The entry's token has the same hash, so it is the same token.
  rcases h.parsed c p htoken with ⟨header, hparse⟩
  have hsame : p' = p := parseBearer_determined hparse' hparse (hinj hkey)
  subst hsame
  refine .inr ⟨c', w.auth.now, v.verifiedAt,
    List.mem_concat_self, Int.le_refl _,
    hput.mono w.done _ c' p' v.record v.verifiedAt, ?_⟩
  rw [VerifyCache.expired, decide_eq_false_iff_not, gt_iff_lt, Int.not_lt, h.kept] at hexp
  exact Int.sub_le_of_sub_le hexp

/-- A put leaves entries that have their lookup, if it comes from one. -/
theorem entryTraced_put {w : World} (h : Traced d ttl w) {done : List Deed} {c : CallId}
    {p : ParsedKey} {rec : KeyRecord} (htoken : w.tokens c = some p)
    (hput : ResolvedBy done c p rec w.auth.now) (key : String) (v : CachedKey)
    (hv : (w.auth.cache.put (d.externals.cacheKey p.fullToken) rec w.auth.now).lru key = some v) :
    w.auth.cache.lru key = some v ∨ EntryTraced d done key v := by
  rcases w.auth.cache.lru_put _ _ hv with ⟨rfl, rfl⟩ | hold
  · rcases h.parsed c p htoken with ⟨header, hparse⟩
    exact .inr ⟨c, p, header, hparse, rfl, hput⟩
  · exact .inl hold

/-- A step of the process keeps the invariant. -/
theorem traced_process (hinj : Function.Injective d.externals.cacheKey) {w : World}
    (h : Traced d ttl w) {e : AuthEvent} (hrequest : e.isRequest = false) {t : AuthState}
    (hm : AuthMoved d w.auth e t) (n : Nat) :
    Traced d ttl { w with auth := { t with events := n }, done := w.done ++ deeds d w.auth e } := by
  have hle : w.auth.now ≤ w.auth.now := Int.le_refl _
  have hold : ∀ (key : String) (v : CachedKey), w.auth.cache.lru key = some v →
      w.auth.cache.lru key = some v ∨ EntryTraced d (w.done ++ deeds d w.auth e) key v :=
    fun _ _ hv => .inl hv
  have hsame : ∀ c, (w.auth.calls c).phase = (w.auth.calls c).phase ∨
      PhaseTraced ttl w.auth.now (w.tokens c) (w.done ++ deeds d w.auth e) c
        (w.auth.calls c).phase :=
    fun _ => .inl rfl
  cases hm with
  | ticked t =>
    refine h.advance ?_ rfl hold (fun _ => .inl rfl)
    exact Int.le_add_of_nonneg_right (Int.natCast_nonneg t)
  | rested | created | revoked => exact h.advance hle rfl hold hsame
  | dropped token =>
    exact h.advance hle rfl (fun key v hv => .inl (w.auth.cache.lru_evict token key v hv)) hsame
  | started c job =>
    cases job with
    | request => exact absurd hrequest (by simp [AuthEvent.isRequest])
    | rotate oldID =>
      refine h.advance hle rfl hold (fun c' => ?_)
      by_cases hc : c' = c
      · subst hc
        refine .inr ?_
        simp only [Function.update_self, Job.phase]
        cases d.externals.uuidParse oldID <;> trivial
      · exact .inl (by simp only [Function.update_of_ne hc])
  | hit c p rec hphase hget =>
    -- Only here a record is used that another call may have resolved.
    have hget' := w.auth.cache.get_keeps (d.externals.cacheKey p.fullToken) w.auth.now
    have htoken := h.phase_at hphase
    have hdeeds : deeds d w.auth (.call c .next) = [.lookedUp c p rec w.auth.now] := by
      simp [deeds, hphase, resolveDeeds, hget]
    rw [hdeeds]
    exact h.goto { w.auth with cache := _ } n hle rfl hget'.1
      (fun key v hv => .inl (hget'.2 key v hv))
      ⟨p, htoken, warranted_of_hit hinj h htoken hget⟩
  | missed c p hphase =>
    have hget' := w.auth.cache.get_keeps (d.externals.cacheKey p.fullToken) w.auth.now
    have htoken := h.phase_at hphase
    exact h.goto { w.auth with cache := _ } n hle rfl hget'.1
      (fun key v hv => .inl (hget'.2 key v hv)) htoken
  | found c p u row hphase hrow =>
    have htoken := h.phase_at hphase
    have hdeeds : deeds d w.auth (.call c (.found u)) =
        [.read c p (row.record d.externals.toKeyExternals u)] := by
      simp [deeds, hphase, resolveDeeds, hrow]
    rw [hdeeds]
    exact h.goto w.auth n hle rfl rfl (fun _ _ hv => .inl hv) ⟨htoken, List.mem_concat_self⟩
  | verified c p rec readAt hphase hok =>
    have hread := h.phase_at hphase
    have hdeeds : deeds d w.auth (.call c .next) = [.verified c p rec] := by
      simp only [deeds, hphase, resolveDeeds, if_pos hok]
    rw [hdeeds]
    exact h.goto w.auth n hle rfl rfl (fun _ _ hv => .inl hv)
      ⟨hread.1, List.mem_append_left _ hread.2, List.mem_concat_self⟩
  | cached c p rec readAt hphase =>
    rcases h.phase_at hphase with ⟨htoken, hread, hverified⟩
    have hdeeds : deeds d w.auth (.call c .next) = [.put c p rec w.auth.now] := by
      simp only [deeds, hphase, resolveDeeds]
    have hput : ResolvedBy (w.done ++ [.put c p rec w.auth.now]) c p rec w.auth.now :=
      ⟨List.mem_append_left _ hread, List.mem_append_left _ hverified, List.mem_concat_self⟩
    rw [hdeeds]
    exact h.goto { w.auth with cache := _, cachedRead := _ } n hle rfl rfl
      (entryTraced_put h htoken hput) ⟨p, htoken, .inl ⟨_, hput⟩⟩
  -- The rotation that follows needs no reasons any more.
  | refused c | authorized c | began c | selected c =>
    exact h.goto w.auth n hle rfl rfl hold trivial
  | inserted c | updated c =>
    exact h.goto { w.auth with keys := _ } n hle rfl rfl hold trivial
  | committed c r act next hphase hact hnext =>
    refine h.goto { w.auth with keys := _ } n hle rfl rfl hold ?_
    rcases hnext with rfl | ⟨_, rfl⟩ <;> trivial
  | aborted c => exact h.goto { w.auth with keys := _ } n hle rfl rfl hold trivial
  | flagged c id =>
    refine h.goto { w.auth with cache := _, evictions := _ } n hle rfl
      (w.auth.cache.ttl_revokeByDBID id) (fun key v hv => ?_) trivial
    rw [VerifyCache.lru_revokeByDBID] at hv
    exact .inl hv

/-- One step keeps the invariant. -/
theorem traced_step (hinj : Function.Injective d.externals.cacheKey) {w : World} {e : WorldEvent}
    {w' : World} (h : Traced d ttl w) (hs : worldStep d w e = some w') : Traced d ttl w' := by
  cases e with
  | request c header =>
    simp only [worldStep] at hs
    split at hs
    case h_1 => exact Option.some.inj hs ▸ h
    case h_2 p hparse =>
      rcases Option.map_eq_some_iff.mp hs with ⟨s, hstep, rfl⟩
      simp only [authStep, authMove, Option.map_eq_some_iff, Option.ite_none_right_eq_some,
        Option.some.injEq] at hstep
      rcases hstep with ⟨t, ⟨_, rfl⟩, rfl⟩
      -- The call has the token of its header now, and its phase asks for no more.
      refine ⟨h.kept, fun c' p' hp' => ?_, h.entries, fun c' => ?_⟩
      · by_cases hc : c' = c
        · simp only [hc, Function.update_self, Option.some.injEq] at hp'
          exact ⟨header, hp' ▸ hparse⟩
        · simp only [Function.update_of_ne hc] at hp'
          exact h.parsed c' p' hp'
      · by_cases hc : c' = c
        · subst hc
          simp only [Function.update_self]
          exact rfl
        · simp only [Function.update_of_ne hc]
          exact h.phases c'
  | process e =>
    simp only [worldStep, Option.ite_none_left_eq_some, Bool.not_eq_true,
      Option.map_eq_some_iff] at hs
    rcases hs with ⟨hrequest, s, hstep, rfl⟩
    rcases authStep_moved d w.auth s hstep with ⟨t, hm, rfl⟩
    exact traced_process hinj h hrequest hm _
  | rows =>
    rw [← Option.some.inj hs]
    exact ⟨h.kept, h.parsed, h.entries, h.phases⟩
  | revokeFromCache keyDBID =>
    rw [← Option.some.inj hs]
    refine ⟨(w.auth.cache.ttl_revokeByDBID keyDBID).trans h.kept, h.parsed, fun key v hv => ?_,
      h.phases⟩
    rw [VerifyCache.lru_revokeByDBID] at hv
    exact h.entries key v hv

variable (d ttl)

/-- What is on record is so: a record that was read has the key id of the token,
    and the secret of the token passes against the hash it was verified with. -/
def Deed.Sound : Deed → Prop
  | .read _ p rec => rec.keyID = p.keyID
  | .verified _ p rec => d.externals.verifySecret p.secret rec.secretHash = true
  | _ => True

/-- What a step adds to the record is so. -/
theorem deeds_sound {s s' : AuthState} {e : AuthEvent} (hs : authStep d s e = some s') :
    ∀ x ∈ deeds d s e, x.Sound d := by
  intro x hx
  unfold deeds at hx
  split at hx
  case h_2 => exact absurd hx List.not_mem_nil
  case h_1 c act =>
    split at hx
    case h_2 => exact absurd hx List.not_mem_nil
    case h_1 p stage hphase =>
      unfold resolveDeeds at hx
      split at hx
      case h_1 =>
        rw [Option.mem_toList, Option.map_eq_some_iff] at hx
        rcases hx with ⟨rec, _, rfl⟩
        trivial
      case h_2 u =>
        -- The step is taken only for a row with the key id.
        rw [Option.mem_toList, Option.map_eq_some_iff] at hx
        rcases hx with ⟨row, hrow, rfl⟩
        simp only [authStep, authMove, callStep, hphase, resolveStep, hrow,
          Option.map_eq_some_iff, Option.ite_none_right_eq_some] at hs
        rcases hs with ⟨_, ⟨hkey, _⟩, _⟩
        exact hkey
      case h_3 rec _ =>
        split at hx
        case isTrue hok =>
          rw [List.mem_singleton.mp hx]
          exact hok
        case isFalse => exact absurd hx List.not_mem_nil
      case h_4 =>
        rw [List.mem_singleton.mp hx]
        trivial
      case h_5 => exact absurd hx List.not_mem_nil

/-- The record stays so. -/
theorem done_sound_step (w : World) (e : WorldEvent) (w' : World) (h : ∀ x ∈ w.done, x.Sound d)
    (hs : worldStep d w e = some w') : ∀ x ∈ w'.done, x.Sound d := by
  cases e with
  | request =>
    simp only [worldStep] at hs
    split at hs
    case h_1 => exact Option.some.inj hs ▸ h
    case h_2 p hparse =>
      rcases Option.map_eq_some_iff.mp hs with ⟨s, _, rfl⟩
      exact h
  | process e =>
    simp only [worldStep, Option.ite_none_left_eq_some, Option.map_eq_some_iff] at hs
    rcases hs with ⟨_, s, hstep, rfl⟩
    intro x hx
    rcases List.mem_append.mp hx with hx | hx
    · exact h x hx
    · exact deeds_sound d hstep x hx
  | rows | revokeFromCache => exact Option.some.inj hs ▸ h

/-- What a request is forwarded with is the record it has, while that is
    active. -/
theorem forwards_eq_some {w : World} {c : CallId} {rec : KeyRecord} {ws : WorkspaceContext}
    (h : w.forwards c = some (rec, ws)) :
    (∃ readAt, (w.auth.calls c).phase = .resolved rec readAt) ∧
      rec.active w.auth.now = true ∧ ws = rec.context := by
  unfold World.forwards at h
  split at h
  case h_2 => cases h
  case h_1 rec' readAt hphase =>
    unfold authenticate at h
    by_cases hactive : rec'.active w.auth.now = true
    · simp only [if_pos hactive, Option.some.injEq, Prod.mk.injEq] at h
      rcases h with ⟨rfl, rfl⟩
      exact ⟨⟨readAt, hphase⟩, hactive, rfl⟩
    · simp only [if_neg hactive, reduceCtorEq] at h

/-- In every run, a request that has a record has it for its token: the record was
    found by the key id of the token and verified with its secret. -/
theorem resolved_for_token (hinj : Function.Injective d.externals.cacheKey) {keys : Keys}
    {now : Time} {es : List WorldEvent} {w : World}
    (hrun : run (worldStep d) (World.initial keys ttl now) es = some w) {c : CallId}
    {rec : KeyRecord} {readAt : Nat} (hphase : (w.auth.calls c).phase = .resolved rec readAt) :
    ∃ p, w.tokens c = some p ∧ Warranted (newVerifyCache ttl).ttl w.auth.now w.done c p rec ∧
      rec.keyID = p.keyID ∧ d.externals.verifySecret p.secret rec.secretHash = true := by
  have htraced := Transition.run_kept (Traced d (newVerifyCache ttl).ttl)
    (traced_initial d ttl keys now) (fun w e w' h hs => traced_step hinj h hs) hrun
  have hsound := Transition.run_kept (fun w => ∀ x ∈ w.done, x.Sound d)
    (fun _ hx => absurd hx List.not_mem_nil)
    (fun w e w' h hs => done_sound_step d w e w' h hs) hrun
  rcases htraced.phase_at hphase with ⟨p, htoken, hwarranted⟩
  have hdeeds : ∃ c', .read c' p rec ∈ w.done ∧ .verified c' p rec ∈ w.done := by
    rcases hwarranted with ⟨time, hown⟩ | ⟨c', _, time, _, _, hput, _⟩
    · exact ⟨c, hown.1, hown.2.1⟩
    · exact ⟨c', hput.1, hput.2.1⟩
  rcases hdeeds with ⟨c', hread, hverified⟩
  exact ⟨p, htoken, hwarranted, hsound _ hread, hsound _ hverified⟩

/-- Whatever requests, lookups, changes of the table, revocations and evictions
    come before, a request that is forwarded carries a token for which its record
    was read by key id, verified and cached: by the request itself, or by another
    one whose put is within the TTL of the moment this request asked the cache.
    And the record is active when the request is forwarded. -/
theorem forwarded_with_verified_record (hinj : Function.Injective d.externals.cacheKey)
    (keys : Keys) (now : Time) (es : List WorldEvent) (w : World)
    (hrun : run (worldStep d) (World.initial keys ttl now) es = some w) (c : CallId)
    (rec : KeyRecord) (ws : WorkspaceContext) (hforward : w.forwards c = some (rec, ws)) :
    ∃ p, w.tokens c = some p ∧
      Warranted (newVerifyCache ttl).ttl w.auth.now w.done c p rec ∧
      rec.keyID = p.keyID ∧ d.externals.verifySecret p.secret rec.secretHash = true ∧
      rec.active w.auth.now = true ∧ ws = rec.context := by
  rcases forwards_eq_some hforward with ⟨⟨readAt, hphase⟩, hactive, hws⟩
  rcases resolved_for_token d ttl hinj hrun hphase with ⟨p, htoken, hwarranted, hkey, hverify⟩
  exact ⟨p, htoken, hwarranted, hkey, hverify, hactive, hws⟩

end

/-- A table with one key whose key id has the right length. -/
def bearerKeys : Keys :=
  fun id => if id = 1 then
    some { workspaceID := 2, keyID := "abcdefghijklmnop", secretHash := "hash", env := .live
           pgRole := "dbuser", name := none, expiresAt := none, revokedAt := none
           replacesKeyID := none }
  else none

/-- The header of a request with that key. -/
def bearerHeader : String :=
  "Bearer acd_live_abcdefghijklmnop_0123456789abcdef0123456789abcdef"

/-- A request resolves its token. When the TTL of 300 is just over, another
    request with the token asks the cache, and then one tick goes by. -/
def lateRequest : List WorldEvent :=
  [.request 0 bearerHeader false, .process (.call 0 .next), .process (.call 0 (.found 1)),
    .process (.call 0 .next), .process (.call 0 .next), .process (.tick 300),
    .request 1 bearerHeader false, .process (.call 1 .next), .process (.tick 1)]

/-- The token in the header. -/
def bearerToken : ParsedKey :=
  { keyID := "abcdefghijklmnop", secret := "0123456789abcdef0123456789abcdef"
    fullToken := "acd_live_abcdefghijklmnop_0123456789abcdef0123456789abcdef" }

/-- The record of the key. -/
def bearerRecord : KeyRecord :=
  { id := "aa", workspaceID := "aaa", keyID := "abcdefghijklmnop", secretHash := "hash"
    env := .live, pgRole := "dbuser", name := "", expiresAt := none, revokedAt := none
    replacesKeyID := none }

/-- How the run ends: the second request would be forwarded now, 301 after the
    first one put the record. -/
theorem lateRequest_end :
    ∃ w ws, run (worldStep openDeployment) (World.initial bearerKeys 300 0) lateRequest = some w ∧
      w.forwards 1 = some (bearerRecord, ws) ∧ w.tokens 1 = some bearerToken ∧ w.auth.now = 301 ∧
      w.done = [.read 0 bearerToken bearerRecord, .verified 0 bearerToken bearerRecord,
        .put 0 bearerToken bearerRecord 0, .lookedUp 1 bearerToken bearerRecord 300] := by
  have hend : (run (worldStep openDeployment) (World.initial bearerKeys 300 0) lateRequest).map
      (fun w => ((w.forwards 1).map Prod.fst, w.tokens 1, w.auth.now, w.done)) =
        some (some bearerRecord, some bearerToken, 301,
          [.read 0 bearerToken bearerRecord, .verified 0 bearerToken bearerRecord,
            .put 0 bearerToken bearerRecord 0, .lookedUp 1 bearerToken bearerRecord 300]) := by
    decide
  rcases Option.map_eq_some_iff.mp hend with ⟨w, hrun, hw⟩
  simp only [Prod.mk.injEq, Option.map_eq_some_iff, Prod.exists, exists_and_right,
    exists_eq_right] at hw
  rcases hw with ⟨⟨ws, hforward⟩, htoken, hnow, hdone⟩
  exact ⟨w, ws, hrun, hforward, htoken, hnow, hdone⟩

/-- The second request is forwarded with the record the first one verified, and
    asked the cache within the TTL. -/
theorem second_request_forwarded :
    ∃ w ws p, run (worldStep openDeployment) (World.initial bearerKeys 300 0) lateRequest = some w ∧
      w.forwards 1 = some (bearerRecord, ws) ∧ w.tokens 1 = some p ∧
      Warranted (newVerifyCache 300).ttl w.auth.now w.done 1 p bearerRecord ∧
      bearerRecord.active w.auth.now = true := by
  rcases lateRequest_end with ⟨w, ws, hrun, hforward, _⟩
  rcases forwarded_with_verified_record openDeployment 300 (fun _ _ h => h) bearerKeys 0
    lateRequest w hrun 1 bearerRecord ws hforward with ⟨p, htoken, hwarranted, _, _, hactive, _⟩
  exact ⟨w, ws, p, hrun, hforward, htoken, hwarranted, hactive⟩

/-- At that moment no lookup of its token has put the record within the TTL, and
    the request has not resolved it itself. -/
theorem entry_outlives_ttl :
    ∃ w ws, run (worldStep openDeployment) (World.initial bearerKeys 300 0) lateRequest = some w ∧
      w.forwards 1 = some (bearerRecord, ws) ∧ w.tokens 1 = some bearerToken ∧
      (∀ time, ¬ ResolvedBy w.done 1 bearerToken bearerRecord time) ∧
      ∀ c time, ResolvedBy w.done c bearerToken bearerRecord time →
        time < w.auth.now - (newVerifyCache 300).ttl := by
  rcases lateRequest_end with ⟨w, ws, hrun, hforward, htoken, hnow, hdone⟩
  have hput : ∀ c time, ResolvedBy w.done c bearerToken bearerRecord time → c = 0 ∧ time = 0 := by
    intro c time h
    have hmem := h.2.2
    rw [hdone] at hmem
    simp only [List.mem_cons, reduceCtorEq, Deed.put.injEq, true_and, List.not_mem_nil, or_false,
      false_or] at hmem
    exact hmem
  refine ⟨w, ws, hrun, hforward, htoken, fun time h => ?_, fun c time h => ?_⟩
  · exact absurd (hput 1 time h).1 (by decide)
  · rw [(hput c time h).2, hnow]
    decide

end CoopDB
