import CoopDB.Lib.SqlScanner
import Mathlib.Data.List.Induction

/-!
# The Statements of an SQL Text

The tokens between semicolons, without spaces and comments, are the statements of a
text. What stands in a comment, a string or a quoted identifier is one token or none,
and so no part of a statement.

Words are compared without regard to case, and a name that is not quoted is folded to
lower case. A name may be qualified by a schema, which is not looked at.

A text that begins with words has them as its first tokens, provided the last one does
not go on. So words at a place that opens a statement are the words of that statement.

## Main definitions

* `statements`, `firstStatement`: The statements of a text, and the first of them.
* `qualifiedName`, `afterWords`, `hasWords`: What a statement begins with and has in it.
* `Opens`: A statement begins at a place of a text.
* `Spelled`: A text begins with words that have spaces between them.

## Theorems

* `tokens_word`, `tokens_space`: A word and a gap are one token each.
* `tokens_split`: Behind a place that no token reaches over, the rest is scanned alone.
* `statement_of_opens`: What stands at an opening is a statement.
* `firstStatement_spelled`: The statement of a text that begins with words begins with
  them.
-/

namespace SqlScanner

/-- A space or a comment. -/
def Token.isBlank (t : Token) : Bool :=
  t.kind = .space || t.kind = .comment

/-- The token is one character of punctuation. -/
def Token.isSymbol (c : Char) (t : Token) : Bool :=
  t.kind = .symbol && t.text = [c]

/-- The token is a word, in lower case here. -/
def Token.isWord (w : String) (t : Token) : Bool :=
  t.kind = .ident && t.text.map Char.toLower = w.toList

/-- The name that a token is. -/
def Token.name (t : Token) : Option (List Char) :=
  match t.kind with
  | .ident => some (t.text.map Char.toLower)
  | .quotedIdent => some (t.text.drop 1).dropLast
  | _ => none

/-- The tokens between semicolons that are not blank. -/
def statements : List Token → List (List Token)
  | [] => [[]]
  | t :: ts =>
    if t.isSymbol ';' then [] :: statements ts
    else if t.isBlank then statements ts
    else (statements ts).modifyHead (t :: ·)

/-- The first statement. -/
def firstStatement (ts : List Token) : List Token :=
  (ts.takeWhile fun t => !t.isSymbol ';').filter fun t => !t.isBlank

/-- The tokens behind some words. -/
def afterWords : List String → List Token → Option (List Token)
  | [], ts => some ts
  | _ :: _, [] => none
  | w :: ws, t :: ts => if t.isWord w then afterWords ws ts else none

/-- The tokens behind some words, if they are there. -/
def skipWords (ws : List String) (ts : List Token) : List Token :=
  (afterWords ws ts).getD ts

/-- A name without its schema, and what is behind it. -/
def qualifiedName : List Token → Option (List Char × List Token)
  | [] => none
  | t :: ts =>
    match t.name, ts with
    | none, _ => none
    | some n, dot :: rest => if dot.isSymbol '.' then qualifiedName rest else some (n, dot :: rest)
    | some n, [] => some (n, [])

/-- The words stand somewhere in a statement, one after the other. -/
def hasWords (ws : List String) (ts : List Token) : Bool :=
  ts.tails.any fun ts => (afterWords ws ts).isSome

/-- The tokens before and behind a place, if none reaches over it. -/
def splitTokens : Nat → List Token → Option (List Token × List Token)
  | 0, ts => some ([], ts)
  | _ + 1, [] => none
  | i + 1, t :: ts =>
    if t.text.length ≤ i + 1 then
      (splitTokens (i + 1 - t.text.length) ts).map fun parts => (t :: parts.1, parts.2)
    else none

/-- Nothing but blanks is behind the last semicolon. -/
def opensStatement (ts : List Token) : Bool :=
  ((ts.filter fun t => !t.isBlank).getLast?).all (Token.isSymbol ';')

/-- A statement begins at a place of a text. -/
def Opens (text : List Char) (i : Nat) : Bool :=
  ((splitTokens i (tokens text)).map Prod.fst).any opensStatement

/-- A text that begins with words, with spaces between them, and what is behind. -/
inductive Spelled (rest : List Char) : List (List Char) → List Char → Prop
  | last (w : List Char) : Spelled rest [w] (w ++ rest)
  | cons (w gap text : List Char) (ws : List (List Char)) (hne : gap ≠ [])
      (hgap : gap.all isSpace = true) (h : Spelled rest ws text) :
      Spelled rest (w :: ws) (w ++ (gap ++ text))

/-- A word: a letter or an underscore, and what an identifier goes on with. -/
def isIdentifier (w : List Char) : Bool :=
  w.head?.any identStart && w.all identCont

/-! ### The scanner on words -/

theorem tokensFrom_eq {fuel : Nat} {text : List Char} (h : text.length ≤ fuel) :
    tokensFrom fuel text = tokens text := by
  have hstep : ∀ n fuel (text : List Char), text.length ≤ n → text.length ≤ fuel →
      tokensFrom fuel text = tokensFrom text.length text := by
    intro n
    induction n with
    | zero =>
      intro fuel text hn _
      rw [List.length_eq_zero_iff.mp (Nat.le_zero.mp hn)]
      cases fuel <;> rfl
    | succ n ih =>
      intro fuel text hn hfuel
      cases text with
      | nil => cases fuel <;> rfl
      | cons c rest =>
        cases fuel with
        | zero => exact absurd hfuel (Nat.not_succ_le_zero rest.length)
        | succ fuel =>
          have hpos := measure_pos c rest
          have hdrop : ((c :: rest).drop (measure c rest).2).length ≤ rest.length := by
            rw [List.length_drop, List.length_cons]
            omega
          rw [List.length_cons] at hn hfuel
          rw [List.length_cons, tokensFrom, tokensFrom, ih fuel _ (by omega) (by omega),
            ih rest.length _ (by omega) hdrop]
  exact hstep text.length fuel text (Nat.le_refl _) h

variable (c : Char) (w : List Char) (ts : List Token) (rest text : List Char) (t : Token)

/-- The first token, and the rest. -/
theorem tokens_cons : tokens (c :: rest) =
      ⟨(measure c rest).1, (c :: rest).take (measure c rest).2⟩ ::
        tokens ((c :: rest).drop (measure c rest).2) := by
  have hpos := measure_pos c rest
  have hdrop : ((c :: rest).drop (measure c rest).2).length ≤ rest.length := by
    rw [List.length_drop, List.length_cons]
    omega
  rw [← tokensFrom_eq hdrop]
  rfl

variable {c}

theorem isDigit_codes (h : c.isDigit = true) : 48 ≤ c.toNat ∧ c.toNat ≤ 57 := by
  simp only [Char.isDigit, Bool.and_eq_true, decide_eq_true_eq, ge_iff_le,
    UInt32.le_iff_toNat_le] at h
  exact h

/-- What an identifier begins with begins nothing else. -/
theorem identStart_facts (h : identStart c = true) :
    isSpace c = false ∧ c ≠ '-' ∧ c ≠ '/' ∧ c ≠ apostrophe ∧ c ≠ '"' ∧ c ≠ '$' ∧ c ≠ '&' ∧
      c.isDigit = false := by
  have hne : ∀ d : Char, identStart d = false → c ≠ d := by
    intro d hd hcd
    rw [hcd, hd] at h
    exact Bool.false_ne_true h
  have hcode : ∀ n, identStart (Char.ofNat n) = false → c.toNat ≠ n := by
    intro n hn hc
    refine hne (Char.ofNat n) hn ?_
    rw [← hc, Char.ofNat_toNat]
  refine ⟨?_, hne _ (by decide), hne _ (by decide), hne _ (by decide), hne _ (by decide),
    hne _ (by decide), hne _ (by decide), ?_⟩
  · simp only [isSpace, Bool.or_eq_false_iff, decide_eq_false_iff_not]
    exact ⟨⟨⟨⟨⟨hne _ (by decide), hne _ (by decide)⟩, hne _ (by decide)⟩, hne _ (by decide)⟩,
      hcode 11 (by decide)⟩, hcode 12 (by decide)⟩
  · rw [Bool.eq_false_iff]
    intro hdigit
    obtain ⟨hlow, hhigh⟩ := isDigit_codes hdigit
    -- The ten digits begin no identifier.
    have hten : ∀ n < 58, 48 ≤ n → identStart (Char.ofNat n) = false := by decide
    exact hcode c.toNat (hten c.toNat (Nat.lt_succ_of_le hhigh) hlow) rfl

theorem identCont_of_isSpace (h : isSpace c = true) : identCont c = false := by
  rw [Bool.eq_false_iff]
  intro hcont
  rw [identCont, Bool.or_eq_true, Bool.or_eq_true, decide_eq_true_eq] at hcont
  rcases hcont with (hstart | hdigit) | rfl
  · rw [(identStart_facts hstart).1] at h
    exact Bool.false_ne_true h
  · obtain ⟨hlow, _⟩ := isDigit_codes hdigit
    simp only [isSpace, Bool.or_eq_true, decide_eq_true_eq] at h
    rcases h with ((((rfl | rfl) | rfl) | rfl) | h) | h
    · exact absurd hlow (by decide)
    · exact absurd hlow (by decide)
    · exact absurd hlow (by decide)
    · exact absurd hlow (by decide)
    · omega
    · omega
  · exact absurd h (by decide)

theorem takeWhile_append_stop {p : Char → Bool} {w rest : List Char} (hw : w.all p = true)
    (hstop : ∀ d ∈ rest.head?, p d = false) : (w ++ rest).takeWhile p = w := by
  rw [List.takeWhile_append_of_pos (List.all_eq_true.mp hw)]
  cases rest with
  | nil => rw [List.takeWhile_nil, List.append_nil]
  | cons d =>
    rw [List.takeWhile_cons_of_neg (by rw [hstop d rfl]; exact Bool.false_ne_true), List.append_nil]

variable {rest}

/-- A word that does not go on. One letter before a quote would begin a string. -/
theorem tokens_word (hw : isIdentifier w = true) (hstop : ∀ d ∈ rest.head?, identCont d = false)
    (hlong : 2 ≤ w.length ∨ ∀ d ∈ rest.head?, isSpace d = true) :
    tokens (w ++ rest) = ⟨.ident, w⟩ :: tokens rest := by
  cases w with
  | nil => exact absurd hw (by decide)
  | cons c w =>
    rw [isIdentifier, Bool.and_eq_true, List.all_cons, Bool.and_eq_true] at hw
    obtain ⟨hstart, _, hw⟩ := hw
    have hc : identStart c = true := hstart
    obtain ⟨hspace, hminus, hslash, hquote, hdouble, hdollar, _, hdigit⟩ := identStart_facts hc
    -- The next character is neither a quote nor an ampersand.
    have hnext : ∀ d ∈ (w ++ rest).head?, d ≠ apostrophe ∧ d ≠ '&' := by
      intro d hd
      cases w with
      | nil =>
        rcases hlong with hlong | hlong
        · exact absurd hlong (Nat.not_succ_le_self 1)
        · have hd := hlong d hd
          constructor <;> rintro rfl <;> exact absurd hd (by decide)
      | cons =>
        have hd' := (List.all_eq_true.mp hw) d (Option.some.inj hd ▸ List.mem_cons_self)
        constructor <;> rintro rfl <;> exact absurd hd' (by decide)
    have htake := takeWhile_append_stop hw hstop
    have hhead : (w ++ rest).head? ≠ some apostrophe := fun h => (hnext _ h).1 rfl
    have htwo : ∀ d, (w ++ rest).take 2 ≠ ['&', d] := by
      intro d h
      have hand := congrArg List.head? h
      rw [List.head?_take, if_neg (by decide)] at hand
      exact (hnext '&' hand).2 rfl
    have hletter : measureLetter c (w ++ rest) = (.ident, 1 + w.length) := by
      simp only [measureLetter, hhead, htwo, decide_false, Bool.false_and, Bool.and_false,
        Bool.false_eq_true, if_false, htake]
    have hmeasure : measure c (w ++ rest) = (.ident, 1 + w.length) := by
      simp only [measure, hspace, hminus, hslash, hquote, hdouble, hdollar, hdigit, hc, hletter,
        decide_false, Bool.false_and, Bool.false_eq_true, if_false, if_true]
    rw [List.cons_append, tokens_cons, hmeasure]
    simp only [Nat.add_comm 1, List.take_succ_cons, List.take_left, List.drop_succ_cons,
      List.drop_left]

/-- Spaces. -/
theorem tokens_space {gap rest : List Char} (hne : gap ≠ []) (hgap : gap.all isSpace = true)
    (hstop : ∀ d ∈ rest.head?, isSpace d = false) :
    tokens (gap ++ rest) = ⟨.space, gap⟩ :: tokens rest := by
  cases gap with
  | nil => exact absurd rfl hne
  | cons c gap =>
    rw [List.all_cons, Bool.and_eq_true] at hgap
    have hmeasure : measure c (gap ++ rest) = (.space, 1 + gap.length) := by
      rw [measure, if_pos hgap.1, takeWhile_append_stop hgap.2 hstop]
    rw [List.cons_append, tokens_cons, hmeasure]
    simp only [Nat.add_comm 1, List.take_succ_cons, List.take_left, List.drop_succ_cons,
      List.drop_left]

/-- A word begins with no space. -/
theorem head_word (hw : isIdentifier w = true) : ∀ d ∈ (w ++ rest).head?, isSpace d = false := by
  intro d hd
  cases w with
  | nil => exact absurd hw (by decide)
  | cons c =>
    rw [isIdentifier, Bool.and_eq_true] at hw
    rw [← Option.some.inj hd]
    exact (identStart_facts hw.1).1

/-- A word and one space behind it. -/
theorem tokens_word_space (hw : isIdentifier w = true)
    (hrest : ∀ d ∈ rest.head?, isSpace d = false) :
    tokens (w ++ ([' '] ++ rest)) = ⟨.ident, w⟩ :: ⟨.space, [' ']⟩ :: tokens rest := by
  have hnext : ∀ d ∈ ([' '] ++ rest).head?, d = ' ' := fun d hd => (Option.some.inj hd).symm
  rw [tokens_word w hw (fun d hd => by rw [hnext d hd]; decide)
    (.inr fun d hd => by rw [hnext d hd]; decide),
    tokens_space (List.cons_ne_nil _ _) (by decide) hrest]

/-! ### Statements -/

theorem statements_blank {blank : List Token} (ts : List Token)
    (h : ∀ t ∈ blank, t.isBlank = true) :
    statements (blank ++ ts) = statements ts := by
  induction blank with
  | nil => rfl
  | cons t blank ih =>
    rw [List.forall_mem_cons] at h
    have hsymbol : t.isSymbol ';' = false := by
      have hkind := h.1
      rw [Token.isBlank, Bool.or_eq_true, decide_eq_true_eq, decide_eq_true_eq] at hkind
      rcases hkind with hkind | hkind <;> simp only [Token.isSymbol, hkind, reduceCtorEq,
        decide_false, Bool.false_and]
    rw [List.cons_append, statements, if_neg (Bool.eq_false_iff.mp hsymbol), if_pos h.1, ih h.2]

/-- The statements behind a semicolon are statements. -/
theorem statements_semicolon {more : List Token} {t : Token} (h : t.isSymbol ';' = true) :
    ∀ st ∈ statements more, st ∈ (statements (ts ++ t :: more)).tail := by
  induction ts with
  | nil =>
    intro st hst
    rw [List.nil_append, statements, if_pos h]
    exact hst
  | cons first ts ih =>
    intro st hst
    rw [List.cons_append, statements]
    split
    · exact List.mem_of_mem_tail (ih st hst)
    · split
      · exact ih st hst
      · rw [List.tail_modifyHead]
        exact ih st hst

theorem head_statements : (statements ts).head? = some (firstStatement ts) := by
  induction ts with
  | nil => rfl
  | cons t ts ih =>
    rw [statements, firstStatement, List.takeWhile_cons]
    by_cases hsymbol : t.isSymbol ';' = true
    · rw [if_pos hsymbol, hsymbol]
      rfl
    · rw [if_neg hsymbol, Bool.eq_false_iff.mpr hsymbol]
      by_cases hblank : t.isBlank = true
      · rw [if_pos hblank, ih, Bool.not_false, if_pos rfl, List.filter_cons_of_neg (by
          rw [hblank]
          exact Bool.false_ne_true)]
        rfl
      · rw [if_neg hblank, List.head?_modifyHead, ih, Bool.not_false, if_pos rfl,
          List.filter_cons_of_pos (by rw [Bool.eq_false_iff.mpr hblank]; rfl)]
        rfl

/-- What opens a statement is blank, or ends in a semicolon and blanks. -/
theorem opensStatement_split (h : opensStatement ts = true) : (∀ t ∈ ts, t.isBlank = true) ∨
      ∃ front t blank, ts = front ++ t :: blank ∧ t.isSymbol ';' = true ∧
        ∀ t ∈ blank, t.isBlank = true := by
  induction ts using List.reverseRecOn with
  | nil => exact .inl fun t ht => absurd ht List.not_mem_nil
  | append_singleton ts t ih =>
    by_cases hblank : t.isBlank = true
    · have hshort : opensStatement ts = true := by
        rw [opensStatement, List.filter_append, List.filter_singleton, hblank] at h
        rw [Bool.not_true, cond_false, List.append_nil] at h
        exact h
      rcases ih hshort with hall | ⟨front, t', blank, rfl, hsymbol, hall⟩
      · exact .inl fun t' ht' => (List.mem_append.mp ht').elim (hall t') fun ht' =>
          List.mem_singleton.mp ht' ▸ hblank
      · refine .inr ⟨front, t', blank ++ [t], ?_, hsymbol, fun t'' ht'' =>
          (List.mem_append.mp ht'').elim (hall t'') fun ht'' =>
            List.mem_singleton.mp ht'' ▸ hblank⟩
        rw [List.append_assoc, List.cons_append]
    · refine .inr ⟨ts, t, [], rfl, ?_, fun t ht => absurd ht List.not_mem_nil⟩
      rw [opensStatement, List.filter_append, List.filter_singleton,
        Bool.eq_false_iff.mpr hblank] at h
      rw [Bool.not_false, cond_true, List.getLast?_append, List.getLast?_singleton,
        Option.some_or, Option.all_some] at h
      exact h

/-- What follows an opening is a statement. -/
theorem firstStatement_mem (more : List Token) (h : opensStatement ts = true) :
    firstStatement more ∈ statements (ts ++ more) := by
  have hfirst : firstStatement more ∈ statements more :=
    List.mem_of_mem_head? (head_statements more)
  rcases opensStatement_split ts h with hall | ⟨front, t, blank, rfl, hsymbol, hall⟩
  · rw [statements_blank more hall]
    exact hfirst
  · rw [List.append_assoc, List.cons_append]
    refine List.mem_of_mem_tail (statements_semicolon front hsymbol _ ?_)
    rw [statements_blank more hall]
    exact hfirst

/-- The tokens at a place where none reaches over are the tokens of the rest. -/
theorem tokens_split (i : Nat) (text : List Char) (ts more : List Token)
    (h : splitTokens i (tokens text) = some (ts, more)) :
    tokens text = ts ++ more ∧ more = tokens (text.drop i) := by
  induction hn : text.length using Nat.strongRecOn generalizing i text ts more with
  | _ n ih =>
    cases i with
    | zero =>
      simp only [splitTokens, Option.some.injEq, Prod.mk.injEq] at h
      rw [← h.1, ← h.2]
      exact ⟨rfl, rfl⟩
    | succ i =>
      cases text with
      | nil => cases h
      | cons c rest =>
        have hpos := measure_pos c rest
        rw [List.length_cons] at hn
        rw [tokens_cons] at h ⊢
        generalize (measure c rest).2 = k at h hpos ⊢
        rw [splitTokens] at h
        split at h
        case isFalse => cases h
        case isTrue hlen =>
            rw [Option.map_eq_some_iff] at h
            obtain ⟨⟨ts', more'⟩, hsplit, heq⟩ := h
            rw [Prod.mk.injEq] at heq
            rw [List.length_take, List.length_cons] at hlen hsplit
            obtain ⟨htext, hmore⟩ := ih ((c :: rest).drop k).length
              (by rw [List.length_drop, List.length_cons]; omega) _ _ ts' more' hsplit rfl
            refine ⟨by rw [← heq.1, ← heq.2, htext, List.cons_append], ?_⟩
            rw [← heq.2, hmore, List.drop_drop]
            -- A token may end with the text.
            by_cases hk : k ≤ rest.length + 1
            · rw [Nat.min_eq_left hk, show k + (i + 1 - k) = i + 1 by omega]
            · rw [List.drop_eq_nil_of_le (by rw [List.length_cons]; omega),
                List.drop_eq_nil_of_le (by rw [List.length_cons]; omega)]

/-- What stands at an opening is a statement. -/
theorem statement_of_opens (i : Nat) (hopens : Opens text i = true) :
    firstStatement (tokens (text.drop i)) ∈ statements (tokens text) := by
  rw [Opens, Option.any_eq_true] at hopens
  obtain ⟨ts, hts, hopen⟩ := hopens
  obtain ⟨⟨ts', more⟩, hsplit, heq⟩ := Option.map_eq_some_iff.mp hts
  obtain ⟨htext, hmore⟩ := tokens_split i text ts' more hsplit
  rw [htext, ← hmore]
  refine firstStatement_mem ts' more ?_
  rw [show ts' = ts from heq]
  exact hopen

/-! ### Words at the front -/

theorem spelled_head {ws : List (List Char)} {text : List Char} (h : Spelled rest ws text)
    (hws : ∀ w ∈ ws, isIdentifier w = true) : ∀ d ∈ text.head?, isSpace d = false := by
  cases h with
  | last w => exact head_word w (hws w List.mem_cons_self)
  | cons w gap more => exact head_word w (hws w List.mem_cons_self)

theorem firstStatement_ident :
    firstStatement (⟨.ident, w⟩ :: ts) = ⟨.ident, w⟩ :: firstStatement ts :=
  rfl

theorem firstStatement_space (gap : List Char) (ts : List Token) :
    firstStatement (⟨.space, gap⟩ :: ts) = firstStatement ts :=
  rfl

/-- A name is neither blank nor a semicolon. -/
theorem firstStatement_name (ts : List Token) (h : t.name.isSome = true) :
    firstStatement (t :: ts) = t :: firstStatement ts := by
  have hkind : t.kind = .ident ∨ t.kind = .quotedIdent := by
    unfold Token.name at h
    cases hk : t.kind <;> simp_all
  have hsymbol : t.isSymbol ';' = false := by
    rcases hkind with hk | hk <;> simp [Token.isSymbol, hk]
  have hblank : t.isBlank = false := by
    rcases hkind with hk | hk <;> simp [Token.isBlank, hk]
  rw [firstStatement, List.takeWhile_cons, hsymbol, Bool.not_false, if_pos rfl,
    List.filter_cons_of_pos (by rw [hblank]; rfl)]
  rfl

/-- A text whose first token is a name begins with no space. -/
theorem head_of_name (h : (tokens text).head? = some t) (hname : t.name.isSome = true) :
    ∀ d ∈ text.head?, isSpace d = false := by
  intro d hd
  cases text with
  | nil => cases hd
  | cons c rest =>
    rw [← Option.some.inj hd, Bool.eq_false_iff]
    intro hspace
    rw [tokens_cons, List.head?_cons, Option.some.injEq] at h
    have hkind : t.kind = .space := by
      rw [← h]
      simp [measure, hspace]
    simp [Token.name, hkind] at hname

/-- A text whose first token is a word of it goes on behind the word. -/
theorem tokens_of_head (hrest : rest ≠ []) (h : (tokens (w ++ rest)).head? = some t)
    (hw : t.text = w) : tokens (w ++ rest) = t :: tokens rest := by
  obtain ⟨c, text, htext⟩ := List.exists_cons_of_ne_nil (List.append_ne_nil_of_right_ne_nil w hrest)
  rw [htext, tokens_cons, List.head?_cons, Option.some.injEq] at h
  rw [htext, tokens_cons, h]
  congr 2
  have htake : (w ++ rest).take (measure c text).2 = w := by
    rw [htext, ← hw, ← h]
  -- The token does not reach the end of the text, as there is a rest.
  have hlength := congrArg List.length htake
  have hpos := List.length_pos_iff.mpr hrest
  rw [List.length_take, List.length_append] at hlength
  rw [← htext, show (measure c text).2 = w.length by omega, List.drop_left]

/-- The statement of a text that begins with words begins with them. -/
theorem firstStatement_spelled {ws : List (List Char)} {text : List Char} (h : Spelled rest ws text)
    (hws : ∀ w ∈ ws, isIdentifier w = true) (hstop : ∀ d ∈ rest.head?, identCont d = false)
    (hlong : (∀ w ∈ ws.getLast?, 2 ≤ w.length) ∨ ∀ d ∈ rest.head?, isSpace d = true) :
    firstStatement (tokens text) =
      ws.map (Token.mk .ident) ++ firstStatement (tokens rest) := by
  induction h with
  | last w =>
    rw [List.forall_mem_singleton] at hws
    have hlast : 2 ≤ w.length ∨ ∀ d ∈ rest.head?, isSpace d = true :=
      hlong.imp_left fun hlast => hlast w rfl
    rw [tokens_word w hws hstop hlast, firstStatement_ident]
    rfl
  | cons w gap text ws hne hgap hspelled ih =>
    rw [List.forall_mem_cons] at hws
    have hgapHead : ∀ d ∈ (gap ++ text).head?, isSpace d = true := by
      intro d hd
      obtain ⟨c, gap, rfl⟩ := List.exists_cons_of_ne_nil hne
      rw [← Option.some.inj hd]
      exact List.all_eq_true.mp hgap c List.mem_cons_self
    have hgapStop : ∀ d ∈ (gap ++ text).head?, identCont d = false := by
      intro d hd
      exact identCont_of_isSpace (hgapHead d hd)
    have hlast : (w :: ws).getLast? = ws.getLast? := by
      cases hspelled with
      | last => rfl
      | cons => rw [List.getLast?_cons_cons]
    rw [hlast] at hlong
    rw [tokens_word w hws.1 hgapStop (.inr hgapHead), firstStatement_ident,
      tokens_space hne hgap (spelled_head hspelled hws.2),
      firstStatement_space, ih hws.2 hlong]
    rfl

end SqlScanner
