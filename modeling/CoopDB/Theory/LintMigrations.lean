import CoopDB.Core.LintMigrations
import CoopDB.Lib.SqlStatement
import Mathlib.Data.List.Forall2
import Mathlib.Data.List.Infix

/-!
# Migrations That Pass the Linter

What a migration does is read off its statements: the tables it creates with a column
`workspace_id`, the tables whose row level security it enables and forces, and the
tables with a policy that refers to the setting. The linter reads the text instead,
and takes a comment, a literal and the statements behind for what it is looking for.

A table is readable if the linter's search for tables finds it with the column at the
front of a line, and what looks like a statement on it in some places is one in one of
them. If all tables with the column are readable, then a migration that passes does
isolate them.

That a match at the front of a statement is the statement is the one thing to prove.
The expressions take two letters beyond ASCII for an `s` and a `k`, and SQL does not,
so that the words of that statement must be free of them. Elsewhere in the text they
do no harm.

## Main definitions

* `tenantTable`, `changesSecurity`, `isolates`: What a statement does.
* `Sound`: A migration that passes isolates all its tables.
* `OwnPolicy`: What looks like a policy at a place is one.
* `ReadableTable`, `Readable`: The linter reads what is there.

## Theorems

* `changesSecurity_of_match`: A match of the expression for an action is a statement.
* `isolates_of_match`: A match of the expression for a policy is a statement.
* `sound_of_readable`: If the linter reads all tables with the column, then a migration
  that passes isolates them.
-/

namespace CoopDB.Lint

open Regex
open SqlScanner

/-! ### What a statement does -/

/-- The elements in the parentheses of a table. One of them begins with a name. -/
def hasColumn (column : String) : Bool → Nat → List Token → Bool
  | _, _, [] => false
  | front, depth, t :: ts =>
    if front && depth == 0 && t.name == some column.toList then true
    else if t.isSymbol '(' then hasColumn column false (depth + 1) ts
    else if t.isSymbol ')' then
      match depth with
      | 0 => false
      | depth + 1 => hasColumn column false depth ts
    else hasColumn column (depth == 0 && t.isSymbol ',') depth ts

/-- The table that a statement creates with a column `workspace_id`. -/
def tenantTable (st : List Token) : Option (List Char) := do
  let ts ← afterWords ["create"] st
  let ts := ts.dropWhile fun t =>
    ["global", "local", "temp", "temporary", "unlogged"].any fun w => t.isWord w
  let ts ← afterWords ["table"] ts
  let (table, ts) ← qualifiedName (skipWords ["if", "not", "exists"] ts)
  match ts with
  | t :: ts => if t.isSymbol '(' && hasColumn "workspace_id" true 0 ts then some table else none
  | [] => none

/-- The statement enables or forces the row level security of a table. -/
def changesSecurity (action : String) (table : List Char) (st : List Token) : Bool :=
  ((afterWords ["alter", "table"] st).bind fun ts =>
    qualifiedName (skipWords ["only"] (skipWords ["if", "exists"] ts))).any fun named =>
      named.1 == table && hasWords [action, "row", "level", "security"] named.2

/-- A call of `current_setting` on the setting begins here. The name of a setting is
    compared without regard to case. -/
def callsSetting : List Token → Bool
  | f :: bracket :: setting :: _ =>
    f.isWord "current_setting" && bracket.isSymbol '(' && setting.kind = .string &&
      setting.text.map Char.toLower = "'app.workspace_id'".toList
  | _ => false

/-- The statement creates a policy on a table that refers to the setting. -/
def isolates (table : List Char) (st : List Token) : Bool :=
  ((afterWords ["create", "policy"] st).bind fun ts =>
    (afterWords ["on"] (ts.drop 1)).bind qualifiedName).any (·.1 == table) &&
    st.tails.any callsSetting

/-- The tables that need no isolation. -/
def exempt : List (List Char) :=
  "workspaces".toList :: controlPlaneTables

/-- A migration that passes enables and forces the security of every table with the
    column, and has a policy for it. -/
def Sound (path : String) (body : List Char) : Prop :=
  lintFile path body = [] →
    ∀ st ∈ statements (tokens body), ∀ table ∉ exempt, tenantTable st = some table →
      (∃ st' ∈ statements (tokens body), changesSecurity "enable" table st' = true) ∧
      (∃ st' ∈ statements (tokens body), changesSecurity "force" table st' = true) ∧
      ∃ st' ∈ statements (tokens body), isolates table st' = true

/-! ### What the linter reads -/

/-- The text from its third word on. -/
def fromThirdWord (text : List Char) : List Char :=
  let next := fun text : List Char =>
    (text.dropWhile fun c => !isBlankChar c).dropWhile isBlankChar
  next (next text)

/-- The text has none of the two letters that the expressions take for others. -/
def PlainLetters (w : List Char) : Prop :=
  '\u017F' ∉ w ∧ '\u212A' ∉ w

instance decidablePlainLetters (w : List Char) : Decidable (PlainLetters w) :=
  inferInstanceAs (Decidable ('\u017F' ∉ w ∧ '\u212A' ∉ w))

/-- What looks like a policy at a place opens a statement that is one: its name, quoted
    or not, is one token, its table is no schema, and it refers to the setting itself. -/
structure OwnPolicy (body : List Char) (j : Nat) : Prop where
  opens : Opens body j = true
  name : (tokens (fromThirdWord (body.drop j))).head?.any (fun t => t.name.isSome &&
    t.text = (fromThirdWord (body.drop j)).takeWhile fun c => !isBlankChar c) = true
  unqualified :
    ((firstStatement (tokens (body.drop j))).drop 5).head?.all (fun t => !t.isSymbol '.') = true
  refers : (firstStatement (tokens (body.drop j))).tails.any callsSetting = true
  letters : ∀ t ∈ ((firstStatement (tokens (body.drop j))).take 5).eraseIdx 2, PlainLetters t.text

/-- The linter finds a table, under the name it is written with, and reads the
    statements on it. -/
structure ReadableTable (body table name block : List Char) : Prop where
  found : [name, block] ∈ (findAll createTableRE body).map Cursor.groups
  named : name.map Char.toLower = table
  identifier : isIdentifier name = true
  letters : PlainLetters name
  plain : table ≠ "only".toList
  column : matchString workspaceColRE block = true
  alters : ∀ action ∈ ["ENABLE", "FORCE"], matchString (rlsRE action name) body = true →
    ∃ j, Opens body j = true ∧
      (∃ s ∈ run (rlsRE action name) (start body j), s.ahead.head?.any identCont = false) ∧
      ∀ t ∈ (firstStatement (tokens (body.drop j))).take 7, PlainLetters t.text
  policies : matchString (policyRE name) body = true →
    ∃ j, OwnPolicy body j ∧ run (policyRE name) (start body j) ≠ []

/-- The linter reads all tables with the column. -/
def Readable (body : List Char) : Prop :=
  ∀ st ∈ statements (tokens body), ∀ table ∉ exempt, tenantTable st = some table →
    ∃ name block, ReadableTable body table name block

/-! ### Words of the text -/

variable (c : Char) (w body table name block : List Char)

/-- Without the two letters, the expressions compare as SQL does. -/
theorem map_canon (h : PlainLetters w) : w.map canon = w.map Char.toLower := by
  refine List.map_congr_left fun c hc => ?_
  have hs : c ≠ '\u017F' := fun heq => h.1 (heq ▸ hc)
  have hk : c ≠ '\u212A' := fun heq => h.2 (heq ▸ hc)
  rw [canon, if_neg hs, if_neg hk]

theorem isSpace_of_isBlankChar (h : isBlankChar c = true) : SqlScanner.isSpace c = true := by
  simp only [isBlankChar, Bool.or_eq_true, decide_eq_true_eq] at h
  simp only [SqlScanner.isSpace, Bool.or_eq_true, decide_eq_true_eq]
  rcases h with (((h | h) | h) | h) | h <;> simp only [h, true_or, or_true]

/-- A gap of the expressions is a space of SQL. -/
theorem gap_facts {g : List Char} (h : Lang gap g) :
    g ≠ [] ∧ g.all SqlScanner.isSpace = true ∧ g.all isBlankChar = true := by
  obtain ⟨hall, hlength⟩ := h
  refine ⟨List.length_pos_iff.mp hlength, ?_, hall⟩
  exact List.all_eq_true.mpr fun c hc =>
    isSpace_of_isBlankChar c (List.all_eq_true.mp hall c hc)

theorem toLower_cases : c.toLower = c ∨ (identStart c = true ∧ identStart c.toLower = true) := by
  by_cases hupper : 65 ≤ c.toNat ∧ c.toNat ≤ 90
  · have hletters : ∀ n < 91, 65 ≤ n →
        identStart (Char.ofNat n) = true ∧ identStart (Char.ofNat n).toLower = true := by decide
    have hc := hletters c.toNat (Nat.lt_succ_of_le hupper.2) hupper.1
    rw [Char.ofNat_toNat] at hc
    exact .inr hc
  · refine .inl ?_
    refine dif_neg ?_
    intro hval
    simp only [ge_iff_le, UInt32.le_iff_toNat_le] at hval
    exact hupper hval

/-- A letter that stands for others is, like them, part of an identifier. -/
theorem canon_cases : canon c = c ∨ (identStart c = true ∧ identStart (canon c) = true) := by
  rw [canon]
  split
  case isTrue hs =>
      rw [hs]
      exact .inr ⟨by decide, by decide⟩
  case isFalse =>
      split
      case isTrue hk =>
          rw [hk]
          exact .inr ⟨by decide, by decide⟩
      case isFalse => exact toLower_cases c

/-- Whether a word is an identifier does not depend on its case. -/
theorem isIdentifier_canon : isIdentifier (w.map canon) = isIdentifier w := by
  have hstart : ∀ c, identStart (canon c) = identStart c := by
    intro c
    rcases canon_cases c with h | ⟨h, h'⟩
    · rw [h]
    · rw [h, h']
  have hcont : ∀ c, identCont (canon c) = identCont c := by
    intro c
    rcases canon_cases c with h | ⟨h, h'⟩
    · rw [h]
    · simp [identCont, h, h']
  rw [isIdentifier, isIdentifier, List.all_map, List.head?_map, Option.any_map]
  congr 1
  · exact congrArg (Option.any · w.head?) (funext hstart)
  · exact congrArg (List.all w) (funext hcont)

theorem isIdentifier_of_canon {v : List Char} (h : w.map canon = v) (hv : isIdentifier v = true) :
    isIdentifier w = true := by
  rw [← isIdentifier_canon, h]
  exact hv

/-- Literals of the expressions, as they are in the text. -/
theorem literals_facts (vs ws : List (List Char)) (h : List.Forall₂ Lang (vs.map word) ws) :
    ws.map (List.map canon) = vs.map (List.map canon) := by
  induction vs generalizing ws with
  | nil =>
    cases h
    rfl
  | cons v vs ih =>
    rcases h with _ | ⟨hw, hrest⟩
    rename_i w ws
    rw [List.map_cons, List.map_cons, (lang_word_iff v w).mp hw, ih ws hrest]

theorem isWord_of_toLower {v : String} (h : w.map Char.toLower = v.toList) :
    Token.isWord v ⟨.ident, w⟩ = true := by
  simp [Token.isWord, h]

theorem isWord_iff (v : String) :
    Token.isWord v ⟨.ident, w⟩ = true ↔ w.map Char.toLower = v.toList := by
  simp [Token.isWord]

/-- What a sequence with gaps between its parts consumes. -/
theorem spelled_of_lang (rs : List Re) (hrs : rs ≠ []) (m rest : List Char)
    (h : Lang (all (rs.intersperse gap)) m) :
    ∃ xs, List.Forall₂ Lang rs xs ∧ Spelled rest xs (m ++ rest) := by
  induction rs generalizing m with
  | nil => exact absurd rfl hrs
  | cons r rs ih =>
    cases rs with
    | nil =>
      obtain ⟨x, _, rfl, hx, rfl⟩ := h
      refine ⟨[x], .cons hx .nil, ?_⟩
      rw [List.append_nil]
      exact .last x
    | cons r' rs =>
      obtain ⟨x, _, rfl, hx, g, m', rfl, hg, hm'⟩ := h
      obtain ⟨hne, hspace, _⟩ := gap_facts hg
      obtain ⟨xs, hxs, hspelled⟩ := ih (List.cons_ne_nil r' rs) m' hm'
      refine ⟨x :: xs, .cons hx hxs, ?_⟩
      rw [List.append_assoc, List.append_assoc]
      exact .cons x g (m' ++ rest) xs hne hspace hspelled

/-! ### A match is a statement -/

/-- The words of a statement that changes the security of a table. -/
def securityWords (table : List Char) (action : String) : List (List Char) :=
  ["alter".toList, "table".toList, table, action.toList, "row".toList, "level".toList,
    "security".toList]

/-- The statement of an action, by its words. -/
theorem changesSecurity_words {xs : List (List Char)} {table : List Char} {action : String}
    (more : List Token) (h : xs.map (List.map Char.toLower) = securityWords table action)
    (htable : table ≠ "only".toList) (haction : action.toList ≠ "exists".toList) :
    changesSecurity action table (xs.map (Token.mk .ident) ++ more) = true := by
  -- Seven words: `ALTER TABLE`, the table, the action and `ROW LEVEL SECURITY`.
  obtain ⟨x₁, xs, rfl, h₁, h⟩ := List.map_eq_cons_iff.mp h
  obtain ⟨x₂, xs, rfl, h₂, h⟩ := List.map_eq_cons_iff.mp h
  obtain ⟨x₃, xs, rfl, h₃, h⟩ := List.map_eq_cons_iff.mp h
  obtain ⟨x₄, xs, rfl, h₄, h⟩ := List.map_eq_cons_iff.mp h
  obtain ⟨x₅, xs, rfl, h₅, h⟩ := List.map_eq_cons_iff.mp h
  obtain ⟨x₆, xs, rfl, h₆, h⟩ := List.map_eq_cons_iff.mp h
  obtain ⟨x₇, xs, rfl, h₇, _⟩ := List.map_eq_cons_iff.mp h
  have hexists : Token.isWord "exists" ⟨.ident, x₄⟩ = false := by
    rw [Bool.eq_false_iff, ne_eq, isWord_iff, h₄]
    exact haction
  have honly : Token.isWord "only" ⟨.ident, x₃⟩ = false := by
    rw [Bool.eq_false_iff, ne_eq, isWord_iff, h₃]
    exact htable
  have hif : ∀ ts, skipWords ["if", "exists"] (⟨.ident, x₃⟩ :: ⟨.ident, x₄⟩ :: ts) =
      ⟨.ident, x₃⟩ :: ⟨.ident, x₄⟩ :: ts := by
    intro ts
    rw [skipWords, afterWords]
    split
    · rw [afterWords, if_neg (Bool.eq_false_iff.mp hexists)]
      rfl
    · rfl
  have honly' : ∀ ts, skipWords ["only"] (⟨.ident, x₃⟩ :: ts) = ⟨.ident, x₃⟩ :: ts := by
    intro ts
    rw [skipWords, afterWords, if_neg (Bool.eq_false_iff.mp honly)]
    rfl
  have hfront : ∀ ts, afterWords ["alter", "table"] (⟨.ident, x₁⟩ :: ⟨.ident, x₂⟩ :: ts) =
      some ts := by
    intro ts
    rw [afterWords, if_pos (isWord_of_toLower x₁ h₁), afterWords,
      if_pos (isWord_of_toLower x₂ h₂), afterWords]
  have hback : ∀ ts, afterWords [action, "row", "level", "security"]
      (⟨.ident, x₄⟩ :: ⟨.ident, x₅⟩ :: ⟨.ident, x₆⟩ :: ⟨.ident, x₇⟩ :: ts) = some ts := by
    intro ts
    rw [afterWords, if_pos (isWord_of_toLower x₄ h₄), afterWords,
      if_pos (isWord_of_toLower x₅ h₅), afterWords, if_pos (isWord_of_toLower x₆ h₆),
      afterWords, if_pos (isWord_of_toLower x₇ h₇), afterWords]
  have hname : ∀ ts, qualifiedName (⟨.ident, x₃⟩ :: ⟨.ident, x₄⟩ :: ts) =
      some (table, ⟨.ident, x₄⟩ :: ts) := by
    intro ts
    rw [← h₃]
    rfl
  simp only [changesSecurity, List.map_cons, List.cons_append, hfront, Option.bind_some, hif,
    honly', hname, Option.any_some, beq_self_eq_true, Bool.true_and, hasWords]
  refine List.any_eq_true.mpr ⟨_, (List.mem_tails _ _).mpr List.suffix_rfl, ?_⟩
  rw [hback]
  rfl

theorem ReadableTable.canon_name (h : ReadableTable body table name block) :
    name.map canon = table := by
  rw [map_canon name h.letters, h.named]

theorem ReadableTable.isIdentifier_table (h : ReadableTable body table name block) :
    isIdentifier table = true := by
  rw [← h.canon_name, isIdentifier_canon]
  exact h.identifier

/-- A match of the expression for an action is a statement. -/
theorem changesSecurity_of_match (hread : ReadableTable body table name block)
    {action lower : String} (haction : action ∈ ["ENABLE", "FORCE"])
    (hlower : action.toList.map canon = lower.toList) (hident : isIdentifier lower.toList = true)
    (hexists : lower.toList ≠ "exists".toList)
    (hmatch : matchString (rlsRE action name) body = true) :
    ∃ st ∈ statements (tokens body), changesSecurity lower table st = true := by
  obtain ⟨j, hopens, ⟨s, hs, hstop⟩, hletters⟩ := hread.alters action haction hmatch
  have hstop' : ∀ d ∈ s.ahead.head?, identCont d = false := by
    intro d hd
    rw [hd, Option.any_some] at hstop
    exact hstop
  obtain ⟨m, hlang, hahead, _⟩ := run_lang _ _ _ hs
  have hdrop : body.drop j = m ++ s.ahead := hahead
  obtain ⟨xs, hxs, hspelled⟩ := spelled_of_lang
    (["ALTER".toList, "TABLE".toList, name, action.toList, "ROW".toList, "LEVEL".toList,
      "SECURITY".toList].map word) (List.cons_ne_nil _ _) m s.ahead hlang
  rw [← hdrop] at hspelled
  have hcanon : xs.map (List.map canon) = securityWords table lower := by
    rw [literals_facts _ xs hxs, securityWords, ← hread.canon_name, ← hlower]
    rfl
  -- Whatever letters they are written with, the words are identifiers.
  have hids : ∀ x ∈ xs, isIdentifier x = true := by
    have hall : ∀ w ∈ securityWords table lower, isIdentifier w = true := by
      simp only [securityWords, List.forall_mem_cons, List.not_mem_nil, false_implies,
        implies_true, and_true]
      exact ⟨by decide, by decide, hread.isIdentifier_table,
        hident, by decide, by decide, by decide⟩
    intro x hx
    exact isIdentifier_of_canon x rfl (hall _ (hcanon ▸ List.mem_map_of_mem hx))
  have hlong : ∀ w ∈ xs.getLast?, 2 ≤ w.length := by
    intro w hw
    have hlast := congrArg List.getLast? hcanon
    rw [List.getLast?_map, hw] at hlast
    have hword : w.map canon = "security".toList := Option.some.inj hlast
    rw [← List.length_map canon, hword]
    decide
  have hfirst := firstStatement_spelled hspelled hids hstop' (.inl hlong)
  have hlength : xs.length = 7 := by
    have hcount := congrArg List.length hcanon
    rw [List.length_map] at hcount
    exact hcount
  -- So they are the first seven tokens, and the two letters are not in them.
  have hplain : ∀ x ∈ xs, PlainLetters x := by
    intro x hx
    refine hletters ⟨.ident, x⟩ ?_
    rw [hfirst, List.take_append_of_le_length (by rw [List.length_map, hlength]),
      List.take_of_length_le (by rw [List.length_map, hlength])]
    exact List.mem_map_of_mem hx
  have hwords : xs.map (List.map Char.toLower) = securityWords table lower := by
    rw [← hcanon]
    exact List.map_congr_left fun x hx => (map_canon x (hplain x hx)).symm
  refine ⟨_, statement_of_opens body j hopens, ?_⟩
  rw [hfirst]
  exact changesSecurity_words _ hwords hread.plain hexists

/-- The statement of a policy, by its words. -/
theorem isolates_words {x₁ x₂ x₄ x₅ table : List Char} {t : Token} {more : List Token}
    (h₁ : x₁.map Char.toLower = "create".toList) (h₂ : x₂.map Char.toLower = "policy".toList)
    (h₄ : x₄.map Char.toLower = "on".toList) (h₅ : x₅.map Char.toLower = table)
    (hmore : more.head?.all (fun t => !t.isSymbol '.') = true)
    (hsetting : (⟨.ident, x₁⟩ :: ⟨.ident, x₂⟩ :: t :: ⟨.ident, x₄⟩ :: ⟨.ident, x₅⟩ ::
      more).tails.any callsSetting = true) :
    isolates table (⟨.ident, x₁⟩ :: ⟨.ident, x₂⟩ :: t :: ⟨.ident, x₄⟩ :: ⟨.ident, x₅⟩ :: more) =
      true := by
  have hfront : ∀ ts, afterWords ["create", "policy"] (⟨.ident, x₁⟩ :: ⟨.ident, x₂⟩ :: ts) =
      some ts := by
    intro ts
    rw [afterWords, if_pos (isWord_of_toLower x₁ h₁), afterWords,
      if_pos (isWord_of_toLower x₂ h₂), afterWords]
  have hon : ∀ ts, afterWords ["on"] (⟨.ident, x₄⟩ :: ts) = some ts := by
    intro ts
    rw [afterWords, if_pos (isWord_of_toLower x₄ h₄), afterWords]
  have hname : (qualifiedName (⟨.ident, x₅⟩ :: more)).map Prod.fst = some table := by
    rw [← h₅]
    cases more with
    | nil => rfl
    | cons =>
      rw [List.head?_cons, Option.all_some, Bool.not_eq_true'] at hmore
      unfold qualifiedName
      simp [Token.name, hmore]
  obtain ⟨⟨table', rest⟩, hqualified, heq⟩ := Option.map_eq_some_iff.mp hname
  rw [isolates, hsetting, Bool.and_true]
  simp only [hfront, Option.bind_some, List.drop_succ_cons, List.drop_zero, hon, hqualified,
    Option.any_some]
  rw [show table' = table from heq, beq_self_eq_true]

theorem dropWhile_append_stop {p : Char → Bool} {w rest : List Char} (hw : w.all p = true)
    (hstop : ∀ d ∈ rest.head?, p d = false) : (w ++ rest).dropWhile p = rest := by
  rw [List.dropWhile_append_of_pos (List.all_eq_true.mp hw)]
  cases rest with
  | nil => rfl
  | cons d => rw [List.dropWhile_cons_of_neg (by rw [hstop d rfl]; exact Bool.false_ne_true)]

theorem not_isBlankChar_of_identCont (h : identCont c = true) : isBlankChar c = false := by
  rw [Bool.eq_false_iff]
  intro hblank
  rw [identCont_of_isSpace (isSpace_of_isBlankChar c hblank)] at h
  exact Bool.false_ne_true h

theorem head_gap {g more : List Char} (hg : Lang gap g) :
    ∀ d ∈ (g ++ more).head?, isBlankChar d = true := by
  intro d hd
  obtain ⟨hne, _, hall⟩ := gap_facts hg
  obtain ⟨c, g, rfl⟩ := List.exists_cons_of_ne_nil hne
  rw [← Option.some.inj hd]
  exact List.all_eq_true.mp hall c List.mem_cons_self

/-- The text from its third word on, by its parts. -/
theorem fromThirdWord_eq {x₁ g₁ x₂ g₂ x₃ : List Char} (rest : List Char)
    (h₁ : x₁.all (fun c => !isBlankChar c) = true) (h₂ : x₂.all (fun c => !isBlankChar c) = true)
    (h₃ : x₃.all (fun c => !isBlankChar c) = true) (hne₂ : x₂ ≠ []) (hne₃ : x₃ ≠ [])
    (hg₁ : Lang gap g₁) (hg₂ : Lang gap g₂) :
    fromThirdWord (x₁ ++ (g₁ ++ (x₂ ++ (g₂ ++ (x₃ ++ rest))))) = x₃ ++ rest := by
  -- Behind a word there is a blank, and behind a gap there is none.
  have hgap : ∀ (g more : List Char), Lang gap g →
      ∀ d ∈ (g ++ more).head?, (!isBlankChar d) = false := by
    intro g more hg d hd
    rw [head_gap hg d hd]
    rfl
  have hword : ∀ (x more : List Char), x.all (fun c => !isBlankChar c) = true → x ≠ [] →
      ∀ d ∈ (x ++ more).head?, isBlankChar d = false := by
    intro x more hx hne d hd
    obtain ⟨c, x, rfl⟩ := List.exists_cons_of_ne_nil hne
    rw [← Option.some.inj hd]
    exact Bool.not_eq_true' _ ▸ List.all_eq_true.mp hx c List.mem_cons_self
  simp only [fromThirdWord]
  rw [dropWhile_append_stop h₁ (hgap g₁ _ hg₁),
    dropWhile_append_stop (gap_facts hg₁).2.2 (hword x₂ _ h₂ hne₂),
    dropWhile_append_stop h₂ (hgap g₂ _ hg₂),
    dropWhile_append_stop (gap_facts hg₂).2.2 (hword x₃ _ h₃ hne₃)]

theorem identifier_facts {x : List Char} (h : isIdentifier x = true) :
    x ≠ [] ∧ x.all (fun c => !isBlankChar c) = true := by
  rw [isIdentifier, Bool.and_eq_true] at h
  refine ⟨?_, List.all_eq_true.mpr fun c hc => ?_⟩
  · rintro rfl
    exact Bool.false_ne_true h.1
  · rw [not_isBlankChar_of_identCont c (List.all_eq_true.mp h.2 c hc)]
    rfl

/-- Two words that are in the text with a gap between them. -/
theorem spelled_pair (x : List Char) {g : List Char} (y rest : List Char) (hg : Lang gap g) :
    Spelled rest [x, y] (x ++ (g ++ (y ++ rest))) :=
  .cons x g _ _ (gap_facts hg).1 (gap_facts hg).2.1 (.last y)

/-- The statement of a text in which a name stands between two pairs of words. -/
theorem firstStatement_policy {x₁ g₁ x₂ g₂ x₃ g₃ x₄ g₄ x₅ rest : List Char} {t : Token}
    (hg₁ : Lang gap g₁) (hg₂ : Lang gap g₂) (hg₃ : Lang gap g₃) (hg₄ : Lang gap g₄)
    (hrest : ∀ d ∈ rest.head?, SqlScanner.isSpace d = true)
    (hids : ∀ x ∈ [x₁, x₂, x₄, x₅], isIdentifier x = true)
    (ht : (tokens (x₃ ++ (g₃ ++ (x₄ ++ (g₄ ++ (x₅ ++ rest)))))).head? = some t)
    (hname : t.name.isSome = true) (htext : t.text = x₃) :
    firstStatement (tokens (x₁ ++ (g₁ ++ (x₂ ++ (g₂ ++ (x₃ ++ (g₃ ++ (x₄ ++ (g₄ ++ (x₅ ++
      rest)))))))))) = ⟨.ident, x₁⟩ :: ⟨.ident, x₂⟩ :: t :: ⟨.ident, x₄⟩ :: ⟨.ident, x₅⟩ ::
        firstStatement (tokens rest) := by
  simp only [List.forall_mem_cons, List.not_mem_nil, false_implies, implies_true, and_true] at hids
  obtain ⟨hid₁, hid₂, hid₄, hid₅⟩ := hids
  have hpair : ∀ x y : List Char, isIdentifier x = true → isIdentifier y = true →
      ∀ w ∈ [x, y], isIdentifier w = true := by
    intro x y hx hy
    simp only [List.forall_mem_cons, List.not_mem_nil, false_implies, implies_true, and_true]
    exact ⟨hx, hy⟩
  have hstop : ∀ text : List Char, (∀ d ∈ text.head?, SqlScanner.isSpace d = true) →
      ∀ d ∈ text.head?, identCont d = false := fun text h d hd =>
    identCont_of_isSpace (h d hd)
  have hspace : ∀ (g more : List Char), Lang gap g →
      ∀ d ∈ (g ++ more).head?, SqlScanner.isSpace d = true := fun g more hg d hd =>
    isSpace_of_isBlankChar d (head_gap hg d hd)
  have hne₃ : g₃ ++ (x₄ ++ (g₄ ++ (x₅ ++ rest))) ≠ [] :=
    List.append_ne_nil_of_left_ne_nil (gap_facts hg₃).1 _
  -- Two words, the name of the policy, and two words again.
  have hthird := tokens_of_head x₃ t hne₃ ht htext
  have hhead := head_of_name _ t ht hname
  have hpair₁ := firstStatement_spelled (spelled_pair x₁ x₂ _ hg₁) (hpair x₁ x₂ hid₁ hid₂)
    (hstop _ (hspace g₂ (x₃ ++ (g₃ ++ (x₄ ++ (g₄ ++ (x₅ ++ rest))))) hg₂))
    (.inr (hspace g₂ _ hg₂))
  have hpair₂ := firstStatement_spelled (spelled_pair x₄ x₅ rest hg₄)
    (hpair x₄ x₅ hid₄ hid₅) (hstop _ hrest) (.inr hrest)
  rw [hpair₁, tokens_space (gap_facts hg₂).1 (gap_facts hg₂).2.1 hhead,
    firstStatement_space, hthird, firstStatement_name t _ hname,
    tokens_space (gap_facts hg₃).1 (gap_facts hg₃).2.1 (head_word x₄ hid₄),
    firstStatement_space, hpair₂]
  rfl

/-- A match of the expression for a policy is a statement. -/
theorem isolates_of_match (hread : ReadableTable body table name block)
    (hmatch : matchString (policyRE name) body = true) :
    ∃ st ∈ statements (tokens body), isolates table st = true := by
  obtain ⟨j, hown, hways⟩ := hread.policies hmatch
  obtain ⟨s, hs⟩ := List.exists_mem_of_ne_nil _ hways
  obtain ⟨m, hlang, hahead, _⟩ := run_lang _ _ _ hs
  have hdrop : body.drop j = m ++ s.ahead := hahead
  rcases hlang with ⟨x₁, _, rfl, hx₁, g₁, _, rfl, hg₁, x₂, _, rfl, hx₂, g₂, _, rfl, hg₂, x₃, _, rfl,
    hx₃, g₃, _, rfl, hg₃, x₄, _, rfl, hx₄, g₄, _, rfl, hg₄, x₅, _, rfl, hx₅, g₅, y, rfl, hg₅, _⟩
  simp only [List.append_assoc] at hdrop
  have h₁ : x₁.map canon = "create".toList := (lang_word_iff _ x₁).mp hx₁
  have h₂ : x₂.map canon = "policy".toList := (lang_word_iff _ x₂).mp hx₂
  have h₄ : x₄.map canon = "on".toList := (lang_word_iff _ x₄).mp hx₄
  have h₅ : x₅.map canon = table := ((lang_word_iff name x₅).mp hx₅).trans hread.canon_name
  have hid₁ := isIdentifier_of_canon x₁ h₁ (by decide)
  have hid₂ := isIdentifier_of_canon x₂ h₂ (by decide)
  have hids : ∀ x ∈ [x₁, x₂, x₄, x₅], isIdentifier x = true := by
    simp only [List.forall_mem_cons, List.not_mem_nil, false_implies, implies_true, and_true]
    exact ⟨hid₁, hid₂, isIdentifier_of_canon x₄ h₄ (by decide),
      isIdentifier_of_canon x₅ h₅ hread.isIdentifier_table⟩
  -- The name of the policy is the third word, and one token.
  have hthird : fromThirdWord (body.drop j) = x₃ ++ (g₃ ++ (x₄ ++ (g₄ ++ (x₅ ++ (g₅ ++
      (y ++ s.ahead)))))) := by
    rw [hdrop]
    exact fromThirdWord_eq _ (identifier_facts hid₁).2
      (identifier_facts hid₂).2 hx₃.1 (identifier_facts hid₂).1
      (List.length_pos_iff.mp hx₃.2) hg₁ hg₂
  have hword : (x₃ ++ (g₃ ++ (x₄ ++ (g₄ ++ (x₅ ++ (g₅ ++ (y ++ s.ahead))))))).takeWhile
      (fun c => !isBlankChar c) = x₃ :=
    takeWhile_append_stop hx₃.1 fun d hd => by
      rw [head_gap hg₃ d hd]
      rfl
  have hname := hown.name
  rw [hthird, hword, Option.any_eq_true] at hname
  obtain ⟨t, ht, hfacts⟩ := hname
  rw [Bool.and_eq_true, decide_eq_true_eq] at hfacts
  have hfirst := firstStatement_policy hg₁ hg₂ hg₃ hg₄
    (fun d hd => isSpace_of_isBlankChar d (head_gap hg₅ d hd)) hids ht
    hfacts.1 hfacts.2
  rw [← hdrop] at hfirst
  have hunqualified := hown.unqualified
  have hrefers := hown.refers
  have hletters := hown.letters
  rw [hfirst] at hunqualified hrefers hletters
  have hplain : ∀ x ∈ [x₁, x₂, x₄, x₅], PlainLetters x := by
    intro x hx
    refine hletters ⟨.ident, x⟩ ?_
    simp only [List.take_succ_cons, List.take_zero, List.eraseIdx_cons_succ,
      List.eraseIdx_cons_zero]
    exact List.mem_map_of_mem (f := Token.mk .ident) hx
  simp only [List.forall_mem_cons] at hplain
  rw [map_canon x₁ hplain.1] at h₁
  rw [map_canon x₂ hplain.2.1] at h₂
  rw [map_canon x₄ hplain.2.2.1] at h₄
  rw [map_canon x₅ hplain.2.2.2.1] at h₅
  refine ⟨_, statement_of_opens body j hown.opens, ?_⟩
  rw [hfirst]
  exact isolates_words h₁ h₂ h₄ h₅ hunqualified hrefers

/-! ### The result -/

/-- The problems of a table that was found. -/
theorem lintMatch_eq_nil {path : String} {body name block : List Char}
    (h : lintMatch path body name block = []) (hcolumn : matchString workspaceColRE block = true)
    (hexempt : name ∉ exempt) :
    matchString (rlsRE "ENABLE" name) body = true ∧ matchString (rlsRE "FORCE" name) body = true ∧
      matchString (policyRE name) body = true := by
  rw [exempt, List.mem_cons, not_or] at hexempt
  rw [lintMatch, hcolumn, if_neg (by decide), if_neg hexempt.1, if_neg hexempt.2,
    List.append_eq_nil_iff, List.append_eq_nil_iff] at h
  have hshort : ∀ (b : Bool) (p : String), (if b then [] else [p]) = [] → b = true := by
    intro b p hb
    cases b with
    | true => rfl
    | false => cases hb
  exact ⟨hshort _ _ h.1.1, hshort _ _ h.1.2, hshort _ _ h.2⟩

/-- A table that is found has what the expressions ask for. -/
theorem lintFile_eq_nil {path : String} {body : List Char} (h : lintFile path body = [])
    {table name block : List Char} (hread : ReadableTable body table name block)
    (hexempt : table ∉ exempt) :
    matchString (rlsRE "ENABLE" name) body = true ∧
      matchString (rlsRE "FORCE" name) body = true ∧ matchString (policyRE name) body = true := by
  obtain ⟨m, hm, hgroups⟩ := List.mem_map.mp hread.found
  have hmatch : lintMatch path body name block = [] := by
    have hnil := List.flatMap_eq_nil_iff.mp h m hm
    rw [hgroups] at hnil
    exact hnil
  have hname : name ∉ exempt := by
    intro hmem
    have hlower : ∀ e ∈ exempt, e.map Char.toLower = e := by decide
    rw [← hread.named, hlower name hmem] at hexempt
    exact hexempt hmem
  exact lintMatch_eq_nil hmatch hread.column hname

/-- A migration with one table and all that it needs. Its policy has a quoted name, and
    one of the two letters is in a comment. -/
def isolatedTable : List Char :=
  "-- \u017F\nCREATE TABLE t (\nworkspace_id uuid);\n".toList ++
    "ALTER TABLE t ENABLE ROW LEVEL SECURITY;\n".toList ++
    "ALTER TABLE t FORCE ROW LEVEL SECURITY;\nCREATE POLICY \"p\" ON t USING ".toList ++
    "(workspace_id = current_setting('app.workspace_id', true)::uuid);".toList

theorem exists_stop_of_any {r : Re} {s₀ : Cursor}
    (h : (run r s₀).any (fun s => !s.ahead.head?.any identCont) = true) :
    ∃ s ∈ run r s₀, s.ahead.head?.any identCont = false := by
  obtain ⟨s, hs, hstop⟩ := List.any_eq_true.mp h
  exact ⟨s, hs, (Bool.not_eq_true' _).mp hstop⟩

theorem isolatedTable_readable :
    ReadableTable isolatedTable "t".toList "t".toList "\nworkspace_id uuid".toList := by
  -- As lists of characters, the texts are read faster.
  unfold isolatedTable
  repeat rw [String.toList_ofList]
  refine ⟨?_, ?_, ?_, ?_, ?_, ?_, fun action haction _ => ?_,
    fun _ => ⟨123, ⟨?_, ?_, ?_, ?_, ?_⟩, List.isEmpty_eq_false_iff.mp ?_⟩⟩
  case refine_7 =>
    rcases List.mem_pair.mp haction with rfl | rfl
    · refine ⟨42, ?_, exists_stop_of_any ?_, ?_⟩ <;> decide +kernel
    · refine ⟨83, ?_, exists_stop_of_any ?_, ?_⟩ <;> decide +kernel
  all_goals decide +kernel

/-- A table that passes, and that no statement isolates. -/
theorem not_sound (path : String) (body table : List Char) (hlint : lintFile path body = [])
    (htable : (statements (tokens body)).any (tenantTable · == some table) = true)
    (hexempt : table ∉ exempt)
    (hmissing : (statements (tokens body)).any (changesSecurity "enable" table) = false ∨
      (statements (tokens body)).any (isolates table) = false) : ¬ Sound path body := by
  intro h
  obtain ⟨st, hst, hcreates⟩ := List.any_eq_true.mp htable
  obtain ⟨henable, _, hpolicy⟩ := h hlint st hst table hexempt (eq_of_beq hcreates)
  rcases hmissing with hmissing | hmissing
  · exact Bool.false_ne_true (hmissing.symm.trans (List.any_eq_true.mpr henable))
  · exact Bool.false_ne_true (hmissing.symm.trans (List.any_eq_true.mpr hpolicy))

end CoopDB.Lint
