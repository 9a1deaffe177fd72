import CoopDB.Lib.SqlLiteral

/-!
# Writing a Statement Token by Token

A statement that a program puts together is a list of tokens written one behind the
other. The scanner finds the same tokens if none of them runs into the next: a word
before a word, a number before a letter, a quoted name before a quote.

Whether a token may stand before a character is decided by the token alone, so a list
is checked link by link, and a repeated part of a statement is checked once.

A number that runs into a letter is an error of the Postgres scanner, and so is a
parameter that does. `runsOn` says that a text has one.

## Main definitions

* `Token.fits`, `Fit`: A token before a character, and tokens one behind the other.

## Theorems

* `tokens_of_fit`: The scanner finds the tokens that were written.
-/

namespace SqlScanner

/-- Punctuation that is never part of an operator. -/
def isDelimiter (c : Char) : Bool :=
  c = ',' || c = '(' || c = ')' || c = '[' || c = ']' || c = '.' || c = ';' || c = ':'

/-- A character of an operator that begins no comment. -/
def isOperator (c : Char) : Bool :=
  c = '=' || c = '<' || c = '>' || c = '+' || c = '*' || c = '%' || c = '^' || c = '&' || c = '|' ||
    c = '~' || c = '!' || c = '?' || c = '@' || c = '#'

/-- The characters that end a text in C. -/
def isNul (c : Char) : Bool :=
  c.toNat = 0

/-- A token that the scanner would end before the character that is next. -/
def Token.ends (t : Token) (next : Option Char) : Bool :=
  match t.kind with
  | .space => t.text ≠ [] && t.text.all isSpace && !next.any isSpace
  | .ident => isIdentifier t.text && !next.any identCont &&
      (decide (2 ≤ t.text.length) || next.all isSpace)
  | .quotedIdent => t.identifier.any (fun name => name ≠ [] && t.text = quoted '"' name) &&
      next ≠ some '"'
  | .param => t.text.head? = some '$' && t.text.tail ≠ [] && t.text.tail.all Char.isDigit &&
      !next.any identCont
  | .number => t.text.head?.any Char.isDigit && numberLength t.text = t.text.length &&
      next = some ' '
  | .symbol => t.text.length = 1 &&
      (t.text.all isDelimiter || (t.text.all isOperator && next.all isSpace))
  | _ => false

/-- A token that may be written before a character. -/
def Token.fits (t : Token) (next : Option Char) : Bool :=
  t.ends next && !t.text.any isNul

/-- Tokens one behind the other, with the character behind the last. -/
def Fit : List Token → Option Char → Prop
  | [], _ => True
  | t :: ts, next => t.fits ((ts.flatMap Token.text).head?.or next) = true ∧ Fit ts next

instance decidableFit : (ts : List Token) → (next : Option Char) → Decidable (Fit ts next)
  | [], _ => isTrue trivial
  | _ :: ts, next =>
    have := decidableFit ts next
    inferInstanceAs (Decidable (_ ∧ _))

/-- A number or a parameter goes on as a word or as a number: what is behind it is junk
    to the Postgres scanner. -/
def runsOn : List Token → Bool
  | t :: u :: ts =>
    ((t.kind = .number || t.kind = .param) && (u.kind = .ident || u.kind = .number)) ||
      runsOn (u :: ts)
  | _ => false

/-- The number of a parameter. -/
def Token.paramNumber (t : Token) : Option Nat :=
  if t.kind = .param then some (Nat.ofDigitChars 10 t.text.tail 0) else none

/-- The numbers of the parameters, in the order of the text. -/
def paramNumbers (ts : List Token) : List Nat :=
  ts.filterMap Token.paramNumber

/-- A word of a statement. -/
def Token.word (w : String) : Token :=
  ⟨.ident, w.toList⟩

/-- A space between two tokens. -/
def Token.gap : Token :=
  ⟨.space, [' ']⟩

/-- A character of punctuation. -/
def Token.sign (c : Char) : Token :=
  ⟨.symbol, [c]⟩

/-- A name in quotes. -/
def Token.quotedName (name : String) : Token :=
  ⟨.quotedIdent, quoted '"' name.toList⟩

/-- The parameter of a number. -/
def Token.parameter (n : Nat) : Token :=
  ⟨.param, '$' :: Nat.toDigits 10 n⟩

/-! ### Numbers -/

theorem head?_append_any (p : Char → Bool) (w : List Char) {rest : List Char}
    (hrest : ∀ d ∈ rest.head?, p d = false) : (w ++ rest).head?.any p = w.head?.any p := by
  cases w with
  | cons => rfl
  | nil =>
    cases rest with
    | nil => rfl
    | cons d => exact hrest d rfl

section BeforeSpace

variable (rest : List Char)

theorem digitsLength_space (digit : Char → Bool) (hspace : digit ' ' = false) (w : List Char) :
    digitsLength digit (w ++ ' ' :: rest) = digitsLength digit w := by
  have hhead : ∀ d ∈ (' ' :: rest).head?, digit d = false := fun d hd => Option.some.inj hd ▸ hspace
  induction w with
  | nil =>
    have hgap : (digit ' ' || (' ' = '_' && rest.head?.any digit)) = false := by
      rw [hspace]
      rfl
    rw [List.nil_append, digitsLength.eq_2, hgap]
    rfl
  | cons c w ih =>
    rw [List.cons_append, digitsLength, digitsLength, ih, head?_append_any digit w hhead]

variable (w : List Char)

theorem exponentLength_space : exponentLength (w ++ ' ' :: rest) = exponentLength w := by
  have hhead : ∀ d ∈ (' ' :: rest).head?, Char.isDigit d = false :=
    fun d hd => Option.some.inj hd ▸ rfl
  match w with
  | [] =>
    cases rest <;> rfl
  | [e] =>
    rw [List.singleton_append, exponentLength]
    split <;> rfl
  | e :: d :: w =>
    have hdigits := digitsLength_space rest Char.isDigit rfl
    rw [List.cons_append, List.cons_append, exponentLength, exponentLength,
      head?_append_any Char.isDigit w hhead, hdigits w, ← List.cons_append, hdigits (d :: w)]

theorem fractionLength_space : fractionLength (w ++ ' ' :: rest) = fractionLength w := by
  have hdigit : ∀ d ∈ (' ' :: rest).head?, Char.isDigit d = false :=
    fun d hd => Option.some.inj hd ▸ rfl
  match w with
  | [] => rfl
  | c :: w =>
    by_cases hc : c = '.'
    · have hpoint : ((w ++ ' ' :: rest).head? = some '.') ↔ w.head? = some '.' := by
        cases w with
        | nil => exact ⟨fun h => absurd (Option.some.inj h) (by decide), fun h => nomatch h⟩
        | cons => exact Iff.rfl
      rw [hc, List.cons_append, fractionLength, fractionLength, if_congr hpoint rfl rfl,
        head?_append_any Char.isDigit w hdigit, digitsLength_space rest Char.isDigit rfl w]
    · rw [List.cons_append, fractionLength, fractionLength]
      · exact fun _ h => hc (List.cons.inj h).1
      · exact fun _ h => hc (List.cons.inj h).1

theorem digitsLength_le (digit : Char → Bool) (w : List Char) :
    digitsLength digit w ≤ w.length := by
  induction w with
  | nil => exact Nat.le_refl 0
  | cons c w ih =>
    rw [digitsLength, List.length_cons]
    split <;> omega

theorem fractionLength_le : fractionLength w ≤ w.length := by
  unfold fractionLength
  split
  · rename_i rest
    have hdigits := digitsLength_le Char.isDigit rest
    rw [List.length_cons]
    repeat' split
    all_goals omega
  · exact Nat.zero_le _

theorem exponentLength_le : exponentLength w ≤ w.length := by
  unfold exponentLength
  split
  · rename_i e d rest
    have hdigits := digitsLength_le Char.isDigit rest
    have hall := digitsLength_le Char.isDigit (d :: rest)
    rw [List.length_cons] at hall
    rw [List.length_cons, List.length_cons]
    repeat' split
    all_goals omega
  · exact Nat.zero_le _

theorem decimalLength_le : decimalLength w ≤ w.length := by
  have hwhole := digitsLength_le Char.isDigit w
  have hfraction := fractionLength_le (w.drop (digitsLength Char.isDigit w))
  have hexponent := exponentLength_le (w.drop (digitsLength Char.isDigit w +
    fractionLength (w.drop (digitsLength Char.isDigit w))))
  rw [List.length_drop] at hfraction hexponent
  simp only [decimalLength]
  omega

theorem decimalLength_space : decimalLength (w ++ ' ' :: rest) = decimalLength w := by
  have hwhole := digitsLength_le Char.isDigit w
  have hfraction := fractionLength_le (w.drop (digitsLength Char.isDigit w))
  rw [List.length_drop] at hfraction
  simp only [decimalLength]
  rw [digitsLength_space rest Char.isDigit rfl w, List.drop_append_of_le_length hwhole,
    fractionLength_space, List.drop_append_of_le_length (by omega), exponentLength_space]

theorem basedLength_space (digit : Char → Bool) (hspace : digit ' ' = false) (w : List Char) :
    basedLength digit (w ++ ' ' :: rest) = basedLength digit w := by
  rw [basedLength, basedLength, digitsLength_space rest digit hspace w]

/-- The number a text begins with ends before a space. -/
theorem numberLength_space : numberLength (w ++ ' ' :: rest) = numberLength w := by
  have hdecimal := decimalLength_space rest w
  by_cases hzero : ∃ base v, w = '0' :: base :: v
  · obtain ⟨base, v, rfl⟩ := hzero
    simp only [List.cons_append] at hdecimal
    simp only [List.cons_append, numberLength, hdecimal, basedLength_space rest isHexDigit rfl,
      basedLength_space rest isOctDigit rfl, basedLength_space rest isBinDigit rfl]
  · have hplain : numberLength w = decimalLength w := by
      rw [numberLength]
      exact fun base v h => hzero ⟨base, v, h⟩
    -- A space is the letter of no base.
    rw [hplain, ← hdecimal]
    unfold numberLength
    split
    · rename_i base v heq
      match w with
      | [] => exact absurd (List.cons.inj heq).1 (by decide)
      | [c] =>
        rw [← (List.cons.inj (List.cons.inj heq).2).1]
        rfl
      | c :: d :: w => exact absurd ⟨d, w, congrArg (· :: d :: w) (List.cons.inj heq).1⟩ hzero
    · rfl

end BeforeSpace

theorem basedLength_le (digit : Char → Bool) (w : List Char) :
    basedLength digit w ≤ w.length + 2 := by
  have hdigits := digitsLength_le digit w
  unfold basedLength
  split <;> omega

variable (ts : List Token) (c : Char) (t : Token) (w : List Char) (next : Option Char)
  (rest : List Char)

theorem numberLength_le : numberLength w ≤ w.length := by
  have hdecimal := decimalLength_le w
  unfold numberLength
  split
  · rename_i base rest
    have hhex := basedLength_le isHexDigit rest
    have hoct := basedLength_le isOctDigit rest
    have hbin := basedLength_le isBinDigit rest
    rw [List.length_cons, List.length_cons] at hdecimal ⊢
    simp only
    repeat' split
    all_goals omega
  · exact hdecimal

/-- A text that begins with a digit begins with a number. -/
theorem numberLength_pos (hc : c.isDigit = true) : 0 < numberLength (c :: w) := by
  have hdecimal : 0 < decimalLength (c :: w) := by
    have hdigits : 0 < digitsLength Char.isDigit (c :: w) := by
      rw [digitsLength, hc, Bool.true_or, if_pos rfl]
      omega
    simp only [decimalLength]
    omega
  have hchoice : ∀ based : Nat, 0 < if based = 0 then decimalLength (c :: w) else based := by
    intro based
    split
    · exact hdecimal
    · omega
  unfold numberLength
  split
  · exact hchoice _
  · exact hdecimal

theorem measure_digit (hc : c.isDigit = true) :
    measure c rest = (.number, numberLength (c :: rest)) := by
  have hother : ∀ d : Char, d.isDigit = false → c ≠ d := by
    intro d hd hcd
    rw [hcd, hd] at hc
    exact Bool.false_ne_true hc
  have hspace : isSpace c = false := by
    rw [Bool.eq_false_iff]
    intro hspace
    have hcont := identCont_of_isSpace hspace
    rw [identCont, hc, Bool.or_true, Bool.true_or] at hcont
    exact Bool.false_ne_true hcont.symm
  have hmax : max 1 (numberLength (c :: rest)) = numberLength (c :: rest) :=
    Nat.max_eq_right (numberLength_pos c rest hc)
  simp only [measure, hspace, hother '-' rfl, hother '/' rfl, hother apostrophe rfl, hother '"' rfl,
    hother '$' rfl, hc, hmax, decide_false, Bool.false_and, Bool.false_eq_true, if_false, if_true]

/-- A number before a space. -/
theorem tokens_number (hdigit : w.head?.any Char.isDigit = true)
    (hnumber : numberLength w = w.length) :
    tokens (w ++ ' ' :: rest) = ⟨.number, w⟩ :: tokens (' ' :: rest) := by
  cases w with
  | nil => exact absurd hdigit (by decide)
  | cons c w =>
    have hmeasure := measure_digit c (w ++ ' ' :: rest) hdigit
    have hlength := numberLength_space rest (c :: w)
    rw [List.cons_append] at hlength
    rw [hlength, hnumber] at hmeasure
    rw [List.cons_append, tokens_cons, hmeasure, ← List.cons_append, List.take_left, List.drop_left]

theorem runsOn_append (more : List Token) (h : runsOn more = true) :
    runsOn (ts ++ more) = true := by
  induction ts with
  | nil => exact h
  | cons t ts ih =>
    cases hrest : ts ++ more with
    | nil =>
      rw [hrest] at ih
      exact absurd ih Bool.false_ne_true
    | cons =>
      rw [hrest] at ih
      rw [List.cons_append, hrest, runsOn, ih, Bool.or_true]

/-- Letters and digits that begin with a number and are more than a number: the number
    runs on. -/
theorem runsOn_number (hdigit : w.head?.any Char.isDigit = true) (hw : w.all tagCont = true)
    (hnumber : numberLength w ≠ w.length) : runsOn (tokens (w ++ ' ' :: rest)) = true := by
  cases w with
  | nil => exact absurd hdigit (by decide)
  | cons c w =>
    have hmeasure := measure_digit c (w ++ ' ' :: rest) hdigit
    have hlength := numberLength_space rest (c :: w)
    have hle := numberLength_le (c :: w)
    rw [List.cons_append] at hlength
    rw [hlength] at hmeasure
    rw [List.cons_append, tokens_cons, hmeasure, ← List.cons_append,
      List.drop_append_of_le_length hle]
    -- What is left of the word is a word, or begins with a digit again.
    have hleft : ((c :: w).drop (numberLength (c :: w))).all tagCont = true :=
      List.all_eq_true.mpr fun d hd =>
        List.all_eq_true.mp hw d (List.mem_of_mem_drop hd)
    cases hdrop : (c :: w).drop (numberLength (c :: w)) with
    | nil =>
      have hshort := List.drop_eq_nil_iff.mp hdrop
      exact absurd (Nat.le_antisymm hle hshort) hnumber
    | cons d v =>
      rw [hdrop] at hleft
      by_cases hd : d.isDigit = true
      · rw [List.cons_append (a := d), tokens_cons, measure_digit d _ hd, runsOn]
        simp
      · have hcont : ∀ e, tagCont e = true → identCont e = true := by
          intro e he
          rw [identCont, ← tagCont, he, Bool.true_or]
        have hstart : identStart d = true := by
          have hboth := (Bool.and_eq_true _ _ ▸ List.all_cons ▸ hleft).1
          rw [tagCont, Bool.or_eq_true] at hboth
          exact hboth.resolve_right hd
        have hword : isIdentifier (d :: v) = true := by
          rw [isIdentifier, Bool.and_eq_true]
          exact ⟨hstart, List.all_eq_true.mpr fun e he =>
            hcont e (List.all_eq_true.mp hleft e he)⟩
        have hgap : ∀ e ∈ (' ' :: rest).head?, e = ' ' := fun e he => (Option.some.inj he).symm
        rw [tokens_word (d :: v) hword (fun e he => hgap e he ▸ rfl)
          (.inr fun e he => hgap e he ▸ rfl), runsOn]
        simp

/-! ### The other tokens -/

/-- A parameter. -/
theorem tokens_dollar_digits {digits rest : List Char} (hne : digits ≠ [])
    (hdigits : digits.all Char.isDigit = true) (hstop : ∀ d ∈ rest.head?, d.isDigit = false) :
    tokens ('$' :: digits ++ rest) = ⟨.param, '$' :: digits⟩ :: tokens rest := by
  have hhead : (digits ++ rest).head?.any Char.isDigit = true := by
    cases digits with
    | nil => exact absurd rfl hne
    | cons => exact (Bool.and_eq_true _ _ ▸ List.all_cons ▸ hdigits).1
  have hmeasure : measure '$' (digits ++ rest) = (.param, 1 + digits.length) := by
    have hdollar : measure '$' (digits ++ rest) = measureDollar (digits ++ rest) := rfl
    rw [hdollar, measureDollar, if_pos hhead, takeWhile_append_stop hdigits hstop]
  rw [List.cons_append, tokens_cons, hmeasure]
  simp [Nat.add_comm 1]

/-- A character of punctuation. -/
theorem tokens_symbol (hc : (isDelimiter c || isOperator c) = true) :
    tokens (c :: rest) = ⟨.symbol, [c]⟩ :: tokens rest := by
  have hmeasure : measure c rest = (.symbol, 1) := by
    simp only [isDelimiter, isOperator, Bool.or_eq_true, decide_eq_true_eq] at hc
    rcases hc with (((((((rfl | rfl) | rfl) | rfl) | rfl) | rfl) | rfl) | rfl) |
      (((((((((((((rfl | rfl) | rfl) | rfl) | rfl) | rfl) | rfl) | rfl) | rfl) | rfl) | rfl) |
        rfl) | rfl) | rfl) <;> rfl
  rw [tokens_cons, hmeasure]
  rfl

/-! ### Tokens one behind the other -/

theorem stops_of_any {p : Char → Bool} {next : Option Char} (h : next.any p = false) :
    ∀ d ∈ next, p d = false := by
  intro d hd
  rw [Option.mem_def.mp hd] at h
  exact h

theorem spaces_of_all (h : next.all isSpace = true) : ∀ d ∈ next, isSpace d = true := by
  intro d hd
  rw [Option.mem_def.mp hd] at h
  exact h

/-- The scanner ends a token before what is next. -/
theorem tokens_of_ends (h : t.ends rest.head? = true) :
    tokens (t.text ++ rest) = t :: tokens rest := by
  -- `Token.ends` says, for each kind, what may follow for the scanner to stop there.
  obtain ⟨kind, text⟩ := t
  cases kind with
  | comment | string => exact absurd h Bool.false_ne_true
  | space =>
    simp only [Token.ends, Bool.and_eq_true, decide_eq_true_eq, Bool.not_eq_true'] at h
    exact tokens_space h.1.1 h.1.2 (stops_of_any h.2)
  | ident =>
    simp only [Token.ends, Bool.and_eq_true, Bool.or_eq_true, decide_eq_true_eq,
      Bool.not_eq_true'] at h
    exact tokens_word text h.1.1 (stops_of_any h.1.2) (h.2.imp_right (spaces_of_all _))
  | quotedIdent =>
    simp only [Token.ends, Bool.and_eq_true, Option.any_eq_true, decide_eq_true_eq] at h
    obtain ⟨⟨name, _, _, htext⟩, hnext⟩ := h
    simp only [htext]
    exact tokens_quotedIdent name rest hnext
  | param =>
    simp only [Token.ends, Bool.and_eq_true, decide_eq_true_eq, Bool.not_eq_true'] at h
    obtain ⟨⟨⟨hdollar, hne⟩, hdigits⟩, hnext⟩ := h
    cases text with
    | nil => cases hdollar
    | cons c digits =>
      rw [Option.some.inj hdollar]
      refine tokens_dollar_digits hne hdigits fun d hd => ?_
      have hcont := stops_of_any hnext d hd
      simp only [identCont, Bool.or_eq_false_iff] at hcont
      exact hcont.1.2
  | number =>
    simp only [Token.ends, Bool.and_eq_true, decide_eq_true_eq] at h
    obtain ⟨⟨hdigit, hnumber⟩, hnext⟩ := h
    cases rest with
    | nil => cases hnext
    | cons d rest =>
      rw [Option.some.inj hnext]
      exact tokens_number text rest hdigit hnumber
  | symbol =>
    simp only [Token.ends, Bool.and_eq_true, Bool.or_eq_true, decide_eq_true_eq] at h
    obtain ⟨c, rfl⟩ := List.length_eq_one_iff.mp h.1
    have hc := h.2
    simp only [List.all_cons, List.all_nil, Bool.and_true] at hc
    exact tokens_symbol c rest ((Bool.or_eq_true _ _).mpr (hc.imp_right And.left))

/-- The scanner finds the tokens that were written. -/
theorem tokens_of_fit (h : Fit ts rest.head?) :
    tokens (ts.flatMap Token.text ++ rest) = ts ++ tokens rest := by
  induction ts with
  | nil => rfl
  | cons t ts ih =>
    have hends := ((Bool.and_eq_true _ _).mp h.1).1
    rw [← List.head?_append] at hends
    rw [List.flatMap_cons, List.append_assoc, tokens_of_ends t _ hends, ih h.2, List.cons_append]

/-- One list of tokens behind another. -/
theorem fit_append (more : List Token) (next : Option Char) :
    Fit (ts ++ more) next ↔ Fit ts ((more.flatMap Token.text).head?.or next) ∧ Fit more next := by
  induction ts with
  | nil => exact (iff_of_eq (true_and _)).symm
  | cons t ts ih =>
    rw [List.cons_append, Fit, Fit, ih, List.flatMap_append, List.head?_append, Option.or_assoc,
      and_assoc]

/-- What a word or a number begins with. -/
theorem Token.head_of_ends (h : t.ends next = true) (hkind : t.kind = .ident ∨ t.kind = .number) :
    ∃ c, t.text.head? = some c ∧ identCont c = true := by
  rcases hkind with hkind | hkind
  · simp only [Token.ends, hkind, isIdentifier, Bool.and_eq_true, Option.any_eq_true] at h
    obtain ⟨⟨⟨⟨c, hc, hstart⟩, _⟩, _⟩, _⟩ := h
    exact ⟨c, hc, by rw [identCont, hstart, Bool.true_or, Bool.true_or]⟩
  · simp only [Token.ends, hkind, Bool.and_eq_true, Option.any_eq_true] at h
    obtain ⟨⟨⟨c, hc, hdigit⟩, _⟩, _⟩ := h
    exact ⟨c, hc, by rw [identCont, hdigit, Bool.or_true, Bool.true_or]⟩

/-- What is next to a number or a parameter does not go on with it. -/
theorem Token.stop_of_ends (c : Char) (h : t.ends (some c) = true)
    (hkind : t.kind = .number ∨ t.kind = .param) : identCont c = false := by
  rcases hkind with hkind | hkind
  · simp only [Token.ends, hkind, Bool.and_eq_true, decide_eq_true_eq] at h
    rw [Option.some.inj h.2]
    rfl
  · simp only [Token.ends, hkind, Bool.and_eq_true, Bool.not_eq_true'] at h
    exact h.2

/-- In tokens that were written one behind the other no number goes on. -/
theorem not_runsOn_of_fit (h : Fit ts next) : runsOn ts = false := by
  induction ts with
  | nil => rfl
  | cons t ts ih =>
    cases ts with
    | nil => rfl
    | cons u =>
      rw [runsOn, ih h.2, Bool.or_false, Bool.and_eq_false_imp]
      intro hkind
      simp only [Bool.or_eq_true, decide_eq_true_eq] at hkind
      rw [Bool.eq_false_iff]
      intro hnext
      simp only [Bool.or_eq_true, decide_eq_true_eq] at hnext
      -- The next token begins with a character the first one stops at.
      obtain ⟨c, hc, hcont⟩ := u.head_of_ends _ ((Bool.and_eq_true _ _).mp h.2.1).1 hnext
      have ht := ((Bool.and_eq_true _ _).mp h.1).1
      rw [List.flatMap_cons, List.head?_append, hc, Option.some_or, Option.some_or] at ht
      rw [t.stop_of_ends c ht hkind] at hcont
      exact Bool.false_ne_true hcont

theorem any_isNul_of_fit (h : Fit ts next) : (ts.flatMap Token.text).any isNul = false := by
  induction ts with
  | nil => rfl
  | cons t ts ih =>
    have hnul := ((Bool.and_eq_true _ _).mp h.1).2
    rw [Bool.not_eq_true'] at hnul
    rw [List.flatMap_cons, List.any_append, hnul, ih h.2]
    rfl

theorem isNul_of_isDigit (h : c.isDigit = true) : isNul c = false := by
  have hcodes := isDigit_codes h
  rw [isNul, decide_eq_false_iff_not]
  omega

theorem Token.fits_parameter (n : Nat) {next : Option Char} (hnext : next.any identCont = false) :
    (Token.parameter n).fits next = true := by
  have hdigit : ∀ c ∈ Nat.toDigits 10 n, c.isDigit = true :=
    fun c hc => Nat.isDigit_of_mem_toDigits (by omega) (by omega) hc
  have hnul : (Nat.toDigits 10 n).any isNul = false :=
    List.any_eq_false.mpr fun c hc => by
      rw [isNul_of_isDigit c (hdigit c hc)]
      exact Bool.false_ne_true
  have hdollar : isNul '$' = false := rfl
  simp only [Token.fits, Token.ends, Token.parameter, List.head?_cons, List.tail_cons,
    List.all_eq_true.mpr hdigit, Nat.toDigits_ne_nil, hnext, List.any_cons, hnul, hdollar,
    decide_true, ne_eq, not_false_eq_true, Bool.not_false, Bool.and_self, Bool.or_self]

theorem Token.fits_quotedName {name : String} {next : Option Char} (hname : name ≠ "")
    (hnul : name.toList.any isNul = false) (hquote : '"' ∉ name.toList)
    (hstop : next.any (· == '"') = false) : (Token.quotedName name).fits next = true := by
  have hnext : next ≠ some '"' := by
    rintro rfl
    exact absurd hstop (by decide)
  have hdenotes : (Token.quotedName name).identifier = some name.toList :=
    unquoted_quoted '"' name.toList
  have hne : name.toList ≠ [] := fun h => hname (String.toList_eq_nil_iff.mp h)
  have hquoted : (Token.quotedName name).text = quoted '"' name.toList := rfl
  have hends : (Token.quotedName name).ends next = ((Token.quotedName name).identifier.any
      (fun v => v ≠ [] && (Token.quotedName name).text = quoted '"' v) && next ≠ some '"') := rfl
  rw [Token.fits, hends, hdenotes, Option.any_some, hquoted, decide_eq_true hne,
    decide_eq_true rfl, decide_eq_true hnext, quoted, doubled_of_not_mem '"' _ hquote,
    List.any_cons, List.any_append, hnul]
  rfl

@[simp] theorem Token.paramNumber_parameter (n : Nat) :
    (Token.parameter n).paramNumber = some n := by
  have hnumber : (Token.parameter n).paramNumber =
      some (Nat.ofDigitChars 10 (Nat.toDigits 10 n) 0) := rfl
  rw [hnumber, Nat.ofDigitChars_toDigits (by omega) (by omega)]

@[simp] theorem Token.paramNumber_word (w : String) : (Token.word w).paramNumber = none :=
  rfl

@[simp] theorem Token.paramNumber_gap : Token.gap.paramNumber = none :=
  rfl

@[simp] theorem Token.paramNumber_sign (c : Char) : (Token.sign c).paramNumber = none :=
  rfl

@[simp] theorem paramNumbers_nil : paramNumbers [] = [] :=
  rfl

@[simp] theorem paramNumbers_cons (t : Token) (ts : List Token) :
    paramNumbers (t :: ts) = t.paramNumber.toList ++ paramNumbers ts := by
  cases h : t.paramNumber with
  | none => exact List.filterMap_cons_none h
  | some => exact List.filterMap_cons_some h

@[simp] theorem paramNumbers_append (ts more : List Token) :
    paramNumbers (ts ++ more) = paramNumbers ts ++ paramNumbers more :=
  List.filterMap_append

/-! ### What else a dollar sign begins -/

theorem mem_tokens {text : List Char} {t : Token} (ht : t ∈ tokens text) :
    ∃ c rest, t = ⟨(measure c rest).1, (c :: rest).take (measure c rest).2⟩ := by
  have hfuel : ∀ fuel text, t ∈ tokensFrom fuel text →
      ∃ c rest, t = ⟨(measure c rest).1, (c :: rest).take (measure c rest).2⟩ := by
    intro fuel
    induction fuel with
    | zero => exact fun _ ht => absurd ht List.not_mem_nil
    | succ fuel ih =>
      intro text ht
      cases text with
      | nil => exact absurd ht List.not_mem_nil
      | cons c rest =>
        rcases List.mem_cons.mp ht with ht | ht
        · exact ⟨c, rest, ht⟩
        · exact ih _ ht
  exact hfuel text.length text ht

/-- A dollar sign that begins no parameter is alone, or a letter or another dollar
    sign is behind it. -/
theorem tokens_dollar {text : List Char} {t : Token} (ht : t ∈ tokens text) {rest : List Char}
    (htext : t.text = '$' :: rest) (hkind : t.kind ≠ .param) :
    ∀ d ∈ rest.head?, d = '$' ∨ identStart d = true := by
  intro d hd
  obtain ⟨c, behind, rfl⟩ := mem_tokens ht
  obtain ⟨n, hn⟩ := Nat.exists_eq_succ_of_ne_zero (Nat.ne_of_gt (measure_pos c behind))
  simp only [hn, Nat.succ_eq_add_one, List.take_succ_cons, List.cons.injEq] at htext
  obtain ⟨rfl, hrest⟩ := htext
  have hmeasure : measure '$' behind = measureDollar behind := rfl
  -- The character is the one behind the dollar sign in the text.
  have hhead : behind.head? = some d := by
    rw [← hrest, List.head?_take] at hd
    split at hd
    · cases hd
    · exact hd
  have hlong : n ≠ 0 := by
    rintro rfl
    rw [List.take_zero] at hrest
    rw [← hrest] at hd
    cases hd
  rw [hmeasure] at hn hkind
  unfold measureDollar at hn hkind
  split at hkind
  · exact absurd rfl hkind
  · rename_i hdigit
    rw [if_neg hdigit] at hn
    split at hn
    · rename_i hclose
      by_cases hstart : identStart d = true
      · exact .inr hstart
      · -- No letter, so the tag is empty.
        rw [dollarTag, hhead, Option.any_some, if_neg hstart, List.length_nil, List.drop_zero,
          hhead] at hclose
        exact .inl (Option.some.inj hclose)
    · exact absurd (Nat.succ.inj hn).symm hlong

end SqlScanner
