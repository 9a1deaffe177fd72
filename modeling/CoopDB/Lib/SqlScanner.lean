import Mathlib.Data.List.Basic

/-!
# The Tokens of a Postgres Statement

Where the tokens of an SQL text begin and end, after the rules of the Postgres
scanner: comments, string constants in all their forms, dollar-quoted strings,
quoted and unquoted identifiers, numbers and `$N` parameters. What is left over,
operators and punctuation, is taken one character at a time, which makes no
difference to where the other tokens are. Standard conforming strings are on, so
a backslash is special only in a string that starts with `E`.

A token is measured, not copied. `measure` says how many characters of the text
the next token has, and `tokens` cuts them off. That the tokens together are the
text then holds by construction.

A character beyond ASCII can start an identifier and can be part of one. So can a
dollar sign be part of one, but not start it: in `a$1` there is no parameter.

## Main definitions

* `measure`, `tokens`: The scanner.

## Theorems

* `tokens_param`: A parameter is a dollar sign and ASCII digits.
-/

namespace SqlScanner

/-- The kinds of token, spaces and comments among them. -/
inductive TokenKind
  | space
  | comment
  | string
  | quotedIdent
  | ident
  | param
  | number
  | symbol
  deriving DecidableEq, Repr

/-- A token with the characters it is made of. -/
structure Token where
  kind : TokenKind
  text : List Char
  deriving DecidableEq, Repr

/-- The quote of a string. -/
def apostrophe : Char :=
  Char.ofNat 39

/-- The characters between tokens. -/
def isSpace (c : Char) : Bool :=
  c = ' ' || c = '\t' || c = '\n' || c = '\r' || c.toNat = 11 || c.toNat = 12

/-- A letter, an underscore, or anything beyond ASCII. -/
def identStart (c : Char) : Bool :=
  c.isAlpha || c = '_' || decide (128 ≤ c.toNat)

/-- What an identifier may go on with. -/
def identCont (c : Char) : Bool :=
  identStart c || c.isDigit || c = '$'

/-- What the tag of a dollar-quoted string may go on with. -/
def tagCont (c : Char) : Bool :=
  identStart c || c.isDigit

def isHexDigit (c : Char) : Bool :=
  c.isDigit || decide ('a' ≤ c ∧ c ≤ 'f') || decide ('A' ≤ c ∧ c ≤ 'F')

def isOctDigit (c : Char) : Bool :=
  decide ('0' ≤ c ∧ c ≤ '7')

def isBinDigit (c : Char) : Bool :=
  c = '0' || c = '1'

/-- A string after its opening quote, the closing one included. A doubled quote
    does not close it. -/
def stringLength (quote : Char) (escapes : Bool) : List Char → Nat
  | [] => 0
  | [_] => 1
  | c :: d :: rest =>
    if (escapes && c = '\\') || (c = quote && d = quote) then 2 + stringLength quote escapes rest
    else if c = quote then 1
    else 1 + stringLength quote escapes (d :: rest)

/-- A block comment after its opening, with how many more are open inside it. -/
def blockLength : List Char → Nat → Nat
  | [], _ => 0
  | [_], _ => 1
  | c :: d :: rest, depth =>
    if c = '/' && d = '*' then 2 + blockLength rest (depth + 1)
    else if c = '*' && d = '/' then
      if depth = 0 then 2 else 2 + blockLength rest (depth - 1)
    else 1 + blockLength (d :: rest) depth

/-- The text up to a delimiter and with it. -/
def delimitedLength (delimiter : List Char) : List Char → Nat
  | [] => 0
  | c :: rest =>
    if delimiter.isPrefixOf (c :: rest) then delimiter.length
    else 1 + delimitedLength delimiter rest

/-- Digits, with single underscores between them. -/
def digitsLength (digit : Char → Bool) : List Char → Nat
  | [] => 0
  | c :: rest =>
    if digit c || (c = '_' && rest.head?.any digit) then 1 + digitsLength digit rest else 0

/-- The exponent of a number, if there is a whole one. -/
def exponentLength : List Char → Nat
  | e :: d :: rest =>
    if e = 'e' || e = 'E' then
      if d.isDigit then 1 + digitsLength Char.isDigit (d :: rest)
      else if (d = '+' || d = '-') && rest.head?.any Char.isDigit then
        2 + digitsLength Char.isDigit rest
      else 0
    else 0
  | _ => 0

/-- The point and the digits behind it. Two points are no part of a number. -/
def fractionLength : List Char → Nat
  | '.' :: rest =>
    if rest.head? = some '.' then 0
    else if rest.head?.any Char.isDigit then 1 + digitsLength Char.isDigit rest
    else 1
  | _ => 0

/-- A decimal number. -/
def decimalLength (text : List Char) : Nat :=
  let whole := digitsLength Char.isDigit text
  let fraction := fractionLength (text.drop whole)
  whole + fraction + exponentLength (text.drop (whole + fraction))

/-- An integer after its leading zero and the letter of its base, if it has any
    digit. -/
def basedLength (digit : Char → Bool) (text : List Char) : Nat :=
  match digitsLength digit text with
  | 0 => 0
  | n + 1 => n + 3

/-- A number. -/
def numberLength (text : List Char) : Nat :=
  match text with
  | '0' :: base :: rest =>
    let based :=
      if base = 'x' || base = 'X' then basedLength isHexDigit rest
      else if base = 'o' || base = 'O' then basedLength isOctDigit rest
      else if base = 'b' || base = 'B' then basedLength isBinDigit rest
      else 0
    if based = 0 then decimalLength text else based
  | _ => decimalLength text

/-- The tag of a dollar-quoted string, which may be empty. -/
def dollarTag (rest : List Char) : List Char :=
  if rest.head?.any identStart then rest.takeWhile tagCont else []

/-- What a dollar sign starts: a parameter, a dollar-quoted string, or nothing. -/
def measureDollar (rest : List Char) : TokenKind × Nat :=
  if rest.head?.any Char.isDigit then (.param, 1 + (rest.takeWhile Char.isDigit).length)
  else if (rest.drop (dollarTag rest).length).head? = some '$' then
    (.string, (dollarTag rest).length + 2 + delimitedLength ('$' :: dollarTag rest ++ ['$'])
      (rest.drop ((dollarTag rest).length + 1)))
  else (.symbol, 1)

/-- What a letter starts: a string or a quoted identifier with a letter in front,
    or an identifier. -/
def measureLetter (c : Char) (rest : List Char) : TokenKind × Nat :=
  if rest.head? = some apostrophe && (c = 'e' || c = 'E') then
    (.string, 2 + stringLength apostrophe true (rest.drop 1))
  else if rest.head? = some apostrophe &&
      (c = 'b' || c = 'B' || c = 'x' || c = 'X' || c = 'n' || c = 'N') then
    (.string, 2 + stringLength apostrophe false (rest.drop 1))
  else if (c = 'u' || c = 'U') && rest.take 2 = ['&', apostrophe] then
    (.string, 3 + stringLength apostrophe false (rest.drop 2))
  else if (c = 'u' || c = 'U') && rest.take 2 = ['&', '"'] then
    (.quotedIdent, 3 + stringLength '"' false (rest.drop 2))
  else (.ident, 1 + (rest.takeWhile identCont).length)

/-- The kind of the token a text begins with, and its length. -/
def measure (c : Char) (rest : List Char) : TokenKind × Nat :=
  if isSpace c then (.space, 1 + (rest.takeWhile isSpace).length)
  else if c = '-' && rest.head? = some '-' then
    (.comment, 1 + (rest.takeWhile fun d => d ≠ '\n' && d ≠ '\r').length)
  else if c = '/' && rest.head? = some '*' then (.comment, 2 + blockLength (rest.drop 1) 0)
  else if c = apostrophe then (.string, 1 + stringLength apostrophe false rest)
  else if c = '"' then (.quotedIdent, 1 + stringLength '"' false rest)
  else if c = '$' then measureDollar rest
  else if c.isDigit then (.number, max 1 (numberLength (c :: rest)))
  else if identStart c then measureLetter c rest
  else (.symbol, 1)

/-- The tokens of a text. Every token has a character at least, so its length is
    fuel enough. -/
def tokensFrom : Nat → List Char → List Token
  | 0, _ => []
  | _ + 1, [] => []
  | fuel + 1, c :: rest =>
    { kind := (measure c rest).1, text := (c :: rest).take (measure c rest).2 } ::
      tokensFrom fuel ((c :: rest).drop (measure c rest).2)

/-- The tokens of a text. -/
def tokens (text : List Char) : List Token :=
  tokensFrom text.length text

variable (c : Char) (rest : List Char)

theorem measureLetter_pos : 0 < (measureLetter c rest).2 := by
  unfold measureLetter
  repeat' split
  all_goals simp only
  all_goals omega

theorem measureDollar_pos : 0 < (measureDollar rest).2 := by
  unfold measureDollar
  split
  · simp only
    omega
  · split
    · simp only
      omega
    · exact Nat.zero_lt_one

/-- A token has a character at least. -/
theorem measure_pos : 0 < (measure c rest).2 := by
  unfold measure
  repeat' split
  case isFalse.isFalse.isFalse.isFalse.isFalse.isTrue => exact measureDollar_pos rest
  case isFalse.isFalse.isFalse.isFalse.isFalse.isFalse.isFalse.isTrue =>
    exact measureLetter_pos c rest
  all_goals simp only
  all_goals omega

theorem tokensFrom_text {fuel : Nat} : ∀ text : List Char, text.length ≤ fuel →
    (tokensFrom fuel text).flatMap Token.text = text := by
  induction fuel with
  | zero =>
    intro text hle
    rw [List.length_eq_zero_iff.mp (Nat.le_zero.mp hle)]
    rfl
  | succ fuel ih =>
    intro text hle
    cases text with
    | nil => rfl
    | cons c rest =>
      have hpos := measure_pos c rest
      have hrest : ((c :: rest).drop (measure c rest).2).length ≤ fuel := by
        rw [List.length_drop]
        omega
      simp [tokensFrom, ih _ hrest]

/-- The tokens of a text are the text. -/
theorem tokens_text (text : List Char) : (tokens text).flatMap Token.text = text :=
  tokensFrom_text text (Nat.le_refl _)

theorem measureDollar_param (h : (measureDollar rest).1 = .param) :
    rest.head?.any Char.isDigit = true ∧
      (measureDollar rest).2 = 1 + (rest.takeWhile Char.isDigit).length := by
  unfold measureDollar at h ⊢
  by_cases hdigit : rest.head?.any Char.isDigit = true
  · rw [if_pos hdigit]
    exact ⟨hdigit, rfl⟩
  · rw [if_neg hdigit] at h
    split at h <;> cases h

theorem measureLetter_kind : (measureLetter c rest).1 ≠ .param := by
  unfold measureLetter
  repeat' split
  all_goals simp

/-- Only a dollar sign starts a parameter. -/
theorem measure_param (h : (measure c rest).1 = .param) :
    c = '$' ∧ (measureDollar rest).1 = .param ∧ measure c rest = measureDollar rest := by
  by_cases hdollar : c = '$'
  · subst hdollar
    have heq : measure '$' rest = measureDollar rest := rfl
    exact ⟨rfl, heq ▸ h, heq⟩
  · refine absurd h ?_
    unfold measure
    rw [if_neg hdollar]
    repeat' split
    all_goals first
      | exact measureLetter_kind c rest
      | simp

theorem tokensFrom_param {fuel : Nat} : ∀ (text : List Char) (t : Token), t ∈ tokensFrom fuel text →
    t.kind = .param → ∃ digits, digits ≠ [] ∧ digits.all Char.isDigit = true ∧
      t.text = '$' :: digits := by
  induction fuel with
  | zero => exact fun text t ht => absurd ht List.not_mem_nil
  | succ fuel ih =>
    intro text t ht hkind
    cases text with
    | nil => exact absurd ht List.not_mem_nil
    | cons c rest =>
      simp only [tokensFrom, List.mem_cons] at ht
      rcases ht with rfl | ht
      · rcases measure_param c rest hkind with ⟨rfl, hdollar, heq⟩
        rcases measureDollar_param rest hdollar with ⟨hdigit, hlen⟩
        refine ⟨rest.takeWhile Char.isDigit, ?_, ?_, ?_⟩
        · cases rest with
          | nil => exact absurd hdigit (by decide)
          | cons d =>
            have hd : d.isDigit = true := hdigit
            rw [List.takeWhile_cons_of_pos hd]
            exact List.cons_ne_nil _ _
        · exact List.all_takeWhile
        · simp only [heq, hlen, Nat.add_comm 1, List.take_succ_cons]
          rw [← List.prefix_iff_eq_take.mp (List.takeWhile_prefix Char.isDigit)]
      · exact ih _ t ht hkind

/-- A parameter is a dollar sign and ASCII digits. -/
theorem tokens_param (text : List Char) (t : Token) (ht : t ∈ tokens text)
    (hkind : t.kind = .param) :
    ∃ digits, digits ≠ [] ∧ digits.all Char.isDigit = true ∧ t.text = '$' :: digits :=
  tokensFrom_param text t ht hkind

/-- What is known of a scanner: its tokens are the text, and a parameter is a
    dollar sign and ASCII digits. -/
structure Scanner where
  scan : List Char → List Token
  text : ∀ s, (scan s).flatMap Token.text = s
  param : ∀ s, ∀ t ∈ scan s, t.kind = .param →
    ∃ digits, digits ≠ [] ∧ digits.all Char.isDigit = true ∧ t.text = '$' :: digits

/-- The scanner of this module. -/
def postgres : Scanner :=
  { scan := tokens, text := tokens_text, param := tokens_param }

end SqlScanner
