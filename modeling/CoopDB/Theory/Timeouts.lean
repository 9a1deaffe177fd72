import CoopDB.Core.Config
import CoopDB.Theory.Caller

/-!
# The Statement Timeout

Where a configured statement timeout ends up.

`Load` checks it from above only. The executor replaces a value that is not
positive by five seconds, the procedure path does not, and both truncate to
whole milliseconds when they set it. So a value of at least a millisecond
reaches the server the same way on both paths and within bounds. Any other
value does not: zero switches the timeout of procedures off, a fraction of a
millisecond switches it off on both paths, and a negative value is five seconds
for a statement and a negative setting for a procedure.

## Main definitions

* `Sent.timeout`, `Uses`: The statement timeouts among the messages.
* `FiniteTimeouts`: Every timeout is between 1 ms and 60 s, the same on both paths.
* `TimeoutAtLeastOneMillisecond`: The variable is unset, or what it holds parses to at
  least one millisecond.

## Theorems

* `load_statementTimeout`: What `Load` makes of the variable.
* `uses_execute`, `uses_run`: The one timeout of each path.
* `finiteTimeouts_iff`: The bounds in terms of the configured value.
* `finite_timeouts_iff_at_least_one_millisecond`: The bounds hold exactly under the
  condition on the environment.
* `zero_timeout_is_unlimited`: The environment with a zero timeout.
-/

namespace CoopDB

/-- The statement timeout a message sets or starts with, in milliseconds. -/
def Sent.timeout : Sent → Option Int
  | .setLocal (.statementTimeout ms) => some ms
  | .statement _ current => some current.statementTimeout
  | _ => none

/-- A message sets or starts with this statement timeout. -/
def Uses (sent : List Sent) (ms : Int) : Prop :=
  ∃ m ∈ sent, m.timeout = some ms

/-- The timeout is at least 1 ms and at most 60 s. -/
def InBounds (ms : Int) : Prop :=
  1 ≤ ms ∧ ms ≤ 60000

/-- Every statement forwarded through `Execute` and every procedure body is
    given a timeout within bounds, and the two paths use the same one. -/
structure FiniteTimeouts (cfg : Config) : Prop where
  execute : ∀ q c input db ms,
    Uses (executeSent q (serverExecutor cfg) c input db).1 ms → InBounds ms
  run : ∀ c body workspaceID pgRole args db ms,
    Uses (Dispatcher.run c body (serverCallInput cfg workspaceID pgRole args) db).1 ms → InBounds ms
  same : ∀ q c input db c' body workspaceID pgRole args db' ms ms',
    Uses (executeSent q (serverExecutor cfg) c input db).1 ms →
    Uses (Dispatcher.run c' body (serverCallInput cfg workspaceID pgRole args) db').1 ms' → ms = ms'

/-- The variable is unset, or holds a duration of at least one millisecond. -/
def TimeoutAtLeastOneMillisecond (x : Platform) : Prop :=
  x.getenv "AGENTCOOPDB_STATEMENT_TIMEOUT" = "" ∨
    ∃ d, x.parseDuration (x.getenv "AGENTCOOPDB_STATEMENT_TIMEOUT") = .ok d ∧ 1000000 ≤ d

/-- In a transaction there is only the timeout given to the setup. -/
theorem Transcript.uses {workspaceID pgRole : String} {stmtTimeout idleTimeout : Time}
    {db : SetupReplies} {t₀ : Tx} {sql : String} {sent : List Sent} {committed : Bool}
    (h : Transcript workspaceID pgRole stmtTimeout idleTimeout db t₀ sql sent committed) {ms : Int}
    (hms : Uses sent ms) : ms = milliseconds stmtTimeout := by
  rcases hms with ⟨m, hm, htimeout⟩
  rcases h.mem hm with hframe | hlocal | ⟨t, hsetup, rfl⟩
  · rcases hframe with rfl | rfl | rfl <;> simp [Sent.timeout] at htimeout
  · simp only [setupMessages, List.mem_cons, List.not_mem_nil, or_false] at hlocal
    rcases hlocal with rfl | rfl | rfl | rfl | rfl <;> simp [Sent.timeout] at htimeout
    exact htimeout.symm
  · have hcaller := setup_asCaller "" hsetup
    simp only [Sent.timeout, Option.some.injEq] at htimeout
    exact htimeout.symm.trans hcaller.statementTimeout

/-- A statement is given the timeout of the server's executor. -/
theorem uses_execute {cfg : Config} {q : PgQuery} {c : Conn} {input : ExecuteInput} {db : DbScript}
    {ms : Int} (h : Uses (executeSent q (serverExecutor cfg) c input db).1 ms) :
    ms = milliseconds (serverExecutor cfg).statementTimeout :=
  (executeSent_transcript q (serverExecutor cfg) c input db).uses h

/-- A procedure is given the configured timeout. -/
theorem uses_run {cfg : Config} {c : Conn} {body workspaceID pgRole : String}
    {args : List (String × Json.Value)} {db : RunScript} {ms : Int}
    (h : Uses (Dispatcher.run c body (serverCallInput cfg workspaceID pgRole args) db).1 ms) :
    ms = milliseconds cfg.statementTimeout :=
  (run_transcript c body (serverCallInput cfg workspaceID pgRole args) db).uses h

/-- A database that accepts everything, and answers a null. -/
def acceptingRun : RunScript :=
  { begin := none, setup := ⟨none, none, none, none, none⟩, effects := [], row := .ok none
    commit := none }

/-- Some procedure is run: its body is sent after the setup. -/
theorem accepted_run_statement (cfg : Config) :
    .statement "SELECT 1" (tenantTx "w" "dbuser" cfg.statementTimeout cfg.idleInTxTimeout
        (Tx.start usedConn.session)).current ∈
      (Dispatcher.run usedConn "SELECT 1"
        (serverCallInput cfg "w" "dbuser" []) acceptingRun).1 := by
  have hsetup := (setup_eq_ok "w" "dbuser" cfg.statementTimeout cfg.idleInTxTimeout
    acceptingRun.setup (Tx.start usedConn.session) _).mpr
    ⟨⟨by decide, by decide, rfl, rfl, rfl, rfl, rfl⟩, rfl⟩
  simp only [Dispatcher.run, acceptingRun, serverCallInput, setupSent_snd] at hsetup ⊢
  simp [hsetup, Json.Value.marshal, Json.marshalFields]

/-- Below a millisecond nothing is left of a timeout. -/
theorem one_le_milliseconds (d : Time) : 1 ≤ milliseconds d ↔ 1000000 ≤ d := by
  unfold milliseconds
  constructor
  · intro h
    by_contra hlt
    have hsmall : d < 1000000 := Int.not_le.mp hlt
    have hzero : d.tdiv 1000000 ≤ 0 := by
      by_cases hneg : d ≤ 0
      · have hflip : 0 ≤ (-d).tdiv 1000000 := Int.tdiv_nonneg (Int.neg_nonneg.mpr hneg) (by decide)
        rw [Int.neg_tdiv] at hflip
        exact Int.neg_nonneg.mp hflip
      · exact Int.le_of_eq (Int.tdiv_eq_zero_of_lt (Int.le_of_lt (Int.not_le.mp hneg)) hsmall)
    exact absurd (Int.le_trans h hzero) (by decide)
  · intro h
    rw [Int.tdiv_eq_ediv_of_nonneg (Int.le_trans (by decide) h)]
    exact (Int.le_ediv_iff_mul_le (by decide)).mpr (by rw [Int.one_mul]; exact h)

theorem milliseconds_le {d : Time} (h : d ≤ 60 * second) (hpos : 0 ≤ d) :
    milliseconds d ≤ 60000 := by
  unfold milliseconds
  rw [Int.tdiv_eq_ediv_of_nonneg hpos]
  exact Int.ediv_le_of_le_mul (by decide) h

/-- For a configuration that `Load` accepts the timeouts are finite and the
    same on both paths exactly when the configured value is at least a
    millisecond. -/
theorem finiteTimeouts_iff {cfg : Config} (hmax : cfg.statementTimeout ≤ 60 * second) :
    FiniteTimeouts cfg ↔ 1000000 ≤ cfg.statementTimeout := by
  constructor
  · intro h
    -- The procedure path passes the value on unchanged.
    have hbounds := h.run _ _ _ _ _ _ (milliseconds cfg.statementTimeout)
      ⟨_, accepted_run_statement cfg, rfl⟩
    exact (one_le_milliseconds cfg.statementTimeout).mp hbounds.1
  · intro h
    have hpos : 0 < cfg.statementTimeout := Int.lt_of_lt_of_le (by decide) h
    -- The executor's default does not apply, so both paths set the same value.
    have hexec : (serverExecutor cfg).statementTimeout = cfg.statementTimeout :=
      if_neg (Int.not_le.mpr hpos)
    have hin : InBounds (milliseconds cfg.statementTimeout) :=
      ⟨(one_le_milliseconds cfg.statementTimeout).mpr h,
        milliseconds_le hmax (Int.le_of_lt hpos)⟩
    refine ⟨fun q c input db ms hms => ?_, fun c body w r args db ms hms => ?_,
      fun q c input db c' body w r args db' ms ms' hms hms' => ?_⟩
    · rw [uses_execute hms, hexec]
      exact hin
    · rw [uses_run hms]
      exact hin
    · rw [uses_execute hms, uses_run hms', hexec]

/-- `Load` takes the timeout from its variable, five seconds if it is unset,
    and refuses more than a minute. -/
theorem load_statementTimeout (x : Platform) (cfg : Config) (h : load x = .ok cfg) :
    envDuration x "AGENTCOOPDB_STATEMENT_TIMEOUT" (5 * second) = .ok cfg.statementTimeout ∧
      cfg.statementTimeout ≤ 60 * second := by
  simp only [load, Fallible.bind_eq_ok, Fallible.ensure_eq_ok, decide_eq_true_eq] at h
  -- The variable is the fifth duration, its check the last but one.
  iterate 5 rcases h with ⟨_, -, h⟩
  rcases h with ⟨statementTimeout, hvariable, h⟩
  iterate 15 rcases h with ⟨_, -, h⟩
  rcases h with ⟨_, hmax, _, _, hcfg⟩
  rw [← Except.ok.inj hcfg]
  exact ⟨hvariable, hmax⟩

/-- For every environment that `Load` accepts: the statement timeout of every
    statement and of every procedure is at least 1 ms and at most 60 s, and the
    two paths use the same one, exactly when the variable is unset or holds at
    least a millisecond. -/
theorem finite_timeouts_iff_at_least_one_millisecond (x : Platform) (cfg : Config)
    (h : load x = .ok cfg) : FiniteTimeouts cfg ↔ TimeoutAtLeastOneMillisecond x := by
  rcases load_statementTimeout x cfg h with ⟨hvariable, hmax⟩
  rw [finiteTimeouts_iff hmax]
  unfold TimeoutAtLeastOneMillisecond
  simp only [envDuration, envParsed] at hvariable
  by_cases hunset : x.getenv "AGENTCOOPDB_STATEMENT_TIMEOUT" = ""
  · rw [if_pos hunset, Except.ok.injEq] at hvariable
    rw [← hvariable]
    exact ⟨fun _ => .inl hunset, fun _ => by decide⟩
  · rw [if_neg hunset, Fallible.mapError_eq_ok] at hvariable
    constructor
    · intro hle
      exact .inr ⟨cfg.statementTimeout, hvariable, hle⟩
    · rintro (hempty | ⟨d, hd, hle⟩)
      · exact absurd hempty hunset
      · rw [hvariable, Except.ok.injEq] at hd
        rw [hd]
        exact hle

/-- An environment with a database and the given statement timeout, on a
    platform that reads the few durations used here. -/
def platformWith (statementTimeout : String) : Platform :=
  { getenv := fun key =>
      if key = "AGENTCOOPDB_DATABASE_URL" then "postgres://localhost/agentcoopdb"
      else if key = "AGENTCOOPDB_STATEMENT_TIMEOUT" then statementTimeout
      else ""
    readFile := fun path => .error ("open " ++ path ++ ": no such file or directory")
    parseBool := fun v => .error ("strconv.ParseBool: parsing " ++ goQuote v ++ ": invalid syntax")
    atoi := fun v => .error ("strconv.Atoi: parsing " ++ goQuote v ++ ": invalid syntax")
    parseInt := fun v _ => .error ("strconv.ParseInt: parsing " ++ goQuote v ++ ": invalid syntax")
    parseFloat := fun v => .error ("strconv.ParseFloat: parsing " ++ goQuote v ++
      ": invalid syntax")
    parseDuration := fun v =>
      if v = "0s" then .ok 0
      else if v = "500us" then .ok 500000
      else if v = "2s" then .ok 2000000000
      else .error ("time: invalid duration " ++ goQuote v)
    durationString := fun _ => ""
    trimSpace := id }

/-- Two seconds are accepted, and both paths use them. -/
theorem two_second_timeout_finite :
    ∃ cfg, load (platformWith "2s") = .ok cfg ∧ FiniteTimeouts cfg := by
  refine ⟨_, rfl, ?_⟩
  exact (finite_timeouts_iff_at_least_one_millisecond (platformWith "2s") _ rfl).mpr
    (.inr ⟨2000000000, rfl, by decide⟩)

/-- With a zero timeout `Load` succeeds, statements get the executor's five
    seconds, and the body of a procedure starts with no timeout at all. -/
theorem zero_timeout_is_unlimited :
    ∃ cfg, load (platformWith "0s") = .ok cfg ∧
      milliseconds (serverExecutor cfg).statementTimeout = 5000 ∧
      (∃ current, .statement "SELECT 1" current ∈ (Dispatcher.run usedConn "SELECT 1"
        (serverCallInput cfg "w" "dbuser" []) acceptingRun).1 ∧ current.statementTimeout = 0) ∧
      ¬ FiniteTimeouts cfg := by
  refine ⟨_, rfl, rfl, ⟨_, accepted_run_statement _, rfl⟩, fun h => ?_⟩
  have hle := (finiteTimeouts_iff (by decide)).mp h
  exact absurd hle (by decide)

end CoopDB
