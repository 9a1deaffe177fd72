import CoopDB.Lib.Regex

/-!
# The Migration Linter

`lintFile` of `scripts/lint-migrations`, with its five regular expressions. The
expressions match without regard to case, and a dot matches a line break, too.

The linter looks for tables with a column at the front of a line that is named
`workspace_id`. For each of them three more expressions, with the name of the table
in them, have to match somewhere in the text.

## Main definitions

* `lintMatch`, `lintFile`: The problems of one table, and of a file.
-/

namespace CoopDB.Lint

open Regex

/-- `\s`: unlike in SQL, a vertical tab is none. -/
def isBlankChar (c : Char) : Bool :=
  c = ' ' || c = '\t' || c = '\n' || c = '\r' || c.toNat = 12

/-- `\s+`. -/
def gap : Re := .many isBlankChar 1 false

/-- `\s*`. -/
def blanks : Re := .many isBlankChar 0 false

/-- `.*?`. -/
def anything : Re := .many (fun _ => true) 0 true

/-- A character as it is. -/
def literal (c : Char) : Re := .one (· = c)

/-- A literal text. -/
def text (s : String) : Re := word s.toList

/-- `[a-z_]`. -/
def isNameStart (c : Char) : Bool :=
  (canon c).isLower || c = '_'

/-- `[a-z0-9_]`. -/
def isNameCont (c : Char) : Bool :=
  isNameStart c || c.isDigit

/-- `createTableRE`, with the name of the table and what is in its parentheses as
    groups. -/
def createTableRE : Re :=
  all [text "CREATE", gap, text "TABLE", gap,
    .optional (all [text "IF", gap, text "NOT", gap, text "EXISTS", gap]),
    .group (all [.one isNameStart, .many isNameCont 0 false]), blanks, literal '(',
    .group anything, literal ')', blanks, literal ';']

/-- `workspaceColRE`. -/
def workspaceColRE : Re :=
  all [.lineStart, blanks, text "workspace_id", .wordEdge]

/-- `ALTER TABLE`, the table, and an action on its row level security. -/
def rlsRE (action : String) (table : List Char) : Re :=
  all [text "ALTER", gap, text "TABLE", gap, word table, gap, text action, gap, text "ROW", gap,
    text "LEVEL", gap, text "SECURITY"]

/-- `enableRLSRE`, with the table in it. -/
def enableRLSRE (table : List Char) : Re := rlsRE "ENABLE" table

/-- `forceRLSRE`, with the table in it. -/
def forceRLSRE (table : List Char) : Re := rlsRE "FORCE" table

/-- `policyRE`, with the table in it. The dot in the name of the setting matches any
    character. -/
def policyRE (table : List Char) : Re :=
  all [text "CREATE", gap, text "POLICY", gap, .many (fun c => !isBlankChar c) 1 false, gap,
    text "ON", gap, word table, gap, anything, text "current_setting", literal '(', blanks,
    text "'app", .one fun _ => true, text "workspace_id'"]

/-- `controlPlaneTables`. -/
def controlPlaneTables : List (List Char) :=
  ["api_keys".toList, "audit_logs".toList, "idempotency_keys".toList, "rpc_registry".toList]

/-- A problem, for a name that needs no escapes. -/
def problem (path : String) (table : List Char) (missing : String) : String :=
  path ++ ": table \"" ++ String.ofList table ++ "\" is missing " ++ missing

/-- The problems of a table that was found. -/
def lintMatch (path : String) (body table colsBlock : List Char) : List String :=
  if matchString workspaceColRE colsBlock = false then []
  else if table = "workspaces".toList then []
  else if table ∈ controlPlaneTables then []
  else
    (if matchString (enableRLSRE table) body then []
      else [problem path table "'ALTER TABLE ... ENABLE ROW LEVEL SECURITY'"]) ++
    (if matchString (forceRLSRE table) body then []
      else [problem path table "'ALTER TABLE ... FORCE ROW LEVEL SECURITY'"]) ++
    (if matchString (policyRE table) body then []
      else [problem path table ("a workspace isolation policy keyed on " ++
        "current_setting('app.workspace_id', true)::uuid")])

/-- `lintFile`. -/
def lintFile (path : String) (body : List Char) : List String :=
  (findAll createTableRE body).flatMap fun m =>
    lintMatch path body (m.groups.getD 0 []) (m.groups.getD 1 [])

end CoopDB.Lint
