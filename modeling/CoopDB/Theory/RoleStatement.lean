import CoopDB.Theory.Caller
import CoopDB.Theory.VectorUpsert.Tool

/-!
# The Role Is Set by One Name

`Setup` writes the role of the caller into a statement, in quotes and behind
`isSafeRoleName`.

## Theorems

* `role_read_as_one_name`: Whatever a row of `api_keys` has for a role, a statement that
  sets a role sets the caller's, and the server reads three words and one name in it.
-/

namespace CoopDB

open SqlScanner (Token tokens)

/-- A message other than the first is sent behind it. -/
theorem sent_behind {m : Sent} {a : Assign} {context : String} {reply : Option DbError} {t : Tx}
    {next : Tx → List Sent × Except Failure Tx} (h : m ∈ (sendLocal a context reply t next).1)
    (hm : m ≠ .setLocal a) : ∃ t', m ∈ (next t').1 := by
  cases reply with
  | some => exact absurd (List.mem_singleton.mp h) hm
  | none => exact ⟨_, (List.mem_cons.mp h).resolve_left hm⟩

/-- No role is set unless the guard lets it pass. -/
theorem safe_of_role_sent {workspaceID pgRole : String} {stmtTimeout idleTimeout : Time}
    {db : SetupReplies} {t : Tx} {r : String}
    (h : .setLocal (.role r) ∈ (setupSent workspaceID pgRole stmtTimeout idleTimeout db t).1) :
    isSafeRoleName pgRole = true := by
  unfold setupSent at h
  split_ifs at h with _ _ hunsafe
  · cases h
  · cases h
  · -- The guard stands behind the third message.
    obtain ⟨_, h⟩ := sent_behind h (by simp)
    obtain ⟨_, h⟩ := sent_behind h (by simp)
    obtain ⟨_, h⟩ := sent_behind h (by simp)
    cases h
  · simpa using hunsafe

/-- Each statement of a call of `Setup` that sets a role sets the caller's, and the
    server reads in it three words and one name, which is the role. -/
theorem role_read_as_one_name (workspaceID pgRole : String) (stmtTimeout idleTimeout : Time)
    (db : SetupReplies) (t : Tx) (r : String)
    (h : .setLocal (.role r) ∈ (setupSent workspaceID pgRole stmtTimeout idleTimeout db t).1) :
    r = pgRole ∧ (Token.quotedName r).identifier = some r.toList ∧
      tokens (setRoleText r).toList = [.word "SET", .gap, .word "LOCAL", .gap, .word "ROLE", .gap,
        .quotedName r] := by
  have hrole : r = pgRole := by
    have hmem := (setupSent_sent workspaceID pgRole stmtTimeout idleTimeout db t).subset h
    simpa [setupMessages] using hmem
  have hident := (isSafeRoleName_iff pgRole).mp (safe_of_role_sent h)
  rw [← hrole] at hident
  have htext : (setRoleText r).toList = "SET LOCAL ROLE ".toList ++ (Token.quotedName r).text :=
    calc (setRoleText r).toList
      _ = "SET LOCAL ROLE \"".toList ++ r.toList ++ "\"".toList :=
        String.toList_append.trans (congrArg (· ++ _) String.toList_append)
      _ = "SET LOCAL ROLE ".toList ++ '"' :: (r.toList ++ ['"']) := List.append_assoc _ _ _
      _ = _ := by rw [text_quotedName (hident.quote)]
  have hscan := SqlScanner.tokens_of_fit [.word "SET", .gap, .word "LOCAL", .gap, .word "ROLE",
    .gap, .quotedName r] [] ⟨rfl, rfl, rfl, rfl, rfl, rfl, hident.fits r none rfl, trivial⟩
  simp only [List.flatMap_cons, List.flatMap_nil, List.append_nil] at hscan
  rw [htext]
  exact ⟨hrole, SqlScanner.unquoted_quoted '"' r.toList, hscan⟩

/-- A call with the role of a tenant. -/
theorem dbuser_read_as_one_name :
    tokens (setRoleText "dbuser").toList = [.word "SET", .gap, .word "LOCAL", .gap, .word "ROLE",
      .gap, .quotedName "dbuser"] := by
  have hsafe : isSafeRoleName "dbuser" = true := by decide
  exact (role_read_as_one_name "w" "dbuser" 0 0 ⟨none, none, none, none, none⟩
    (Tx.start usedConn.session) "dbuser" (by simp [setupSent, sendLocal, hsafe])).2.2

end CoopDB
