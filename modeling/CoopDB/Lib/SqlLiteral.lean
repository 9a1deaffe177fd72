import CoopDB.Lib.SqlStatement

/-!
# Quoted Texts in SQL

A string constant and a quoted identifier stand between quotes, and a quote inside is
doubled. With standard conforming strings nothing else is special.

Doubling the quotes of a text and reading it back are inverse to each other, whatever
follows the closing quote, as long as it is no quote. The scanner ends the token at
the same place.

## Main definitions

* `Token.literal`, `Token.identifier`: What a token denotes.

## Theorems

* `tokens_string`, `tokens_quotedIdent`: The scanner on a quoted text.
-/

namespace SqlScanner

/-- The text with each quote doubled. -/
def doubled (quote : Char) (text : List Char) : List Char :=
  text.flatMap fun c => if c = quote then [quote, quote] else [c]

/-- What a quoted text denotes, read from behind its opening quote, and what is left
    behind the closing one: the first quote that no quote follows. -/
def readQuoted (quote : Char) : List Char → Option (List Char × List Char)
  | [] => none
  | [c] => if c = quote then some ([], []) else none
  | c :: d :: rest =>
    if c = quote then
      if d = quote then (readQuoted quote rest).map fun p => (quote :: p.1, p.2)
      else some ([], d :: rest)
    else (readQuoted quote (d :: rest)).map fun p => (c :: p.1, p.2)

/-- The text between quotes, if the closing one is the last character. -/
def unquoted (quote : Char) (text : List Char) : Option (List Char) :=
  match text with
  | [] => none
  | c :: body =>
    if c = quote then
      match readQuoted quote body with
      | some (value, []) => some value
      | _ => none
    else none

/-- What a plain string constant denotes. -/
def Token.literal (t : Token) : Option (List Char) :=
  if t.kind = .string then unquoted apostrophe t.text else none

/-- What a quoted identifier denotes. -/
def Token.identifier (t : Token) : Option (List Char) :=
  if t.kind = .quotedIdent then unquoted '"' t.text else none

variable (quote : Char) (text rest : List Char)

theorem doubled_quote : doubled quote (quote :: text) = quote :: quote :: doubled quote text := by
  rw [doubled, List.flatMap_cons, if_pos rfl]
  rfl

theorem doubled_cons_of_ne {c : Char} (text : List Char) (h : c ≠ quote) :
    doubled quote (c :: text) = c :: doubled quote text := by
  rw [doubled, List.flatMap_cons, if_neg h]
  rfl

/-- Without a quote there is nothing to double. -/
theorem doubled_of_not_mem (h : quote ∉ text) : doubled quote text = text := by
  induction text with
  | nil => rfl
  | cons c text ih =>
    have hne : c ≠ quote := fun heq => h (List.mem_cons.mpr (.inl heq.symm))
    rw [doubled_cons_of_ne quote text hne, ih (fun hmem => h (List.mem_cons_of_mem c hmem))]

section

variable (quote : Char) (rest : List Char) (hrest : rest.head? ≠ some quote)

include hrest

/-- Behind the closing quote nothing is read. -/
theorem readQuoted_close : readQuoted quote (quote :: rest) = some ([], rest) := by
  cases rest with
  | nil => rw [readQuoted, if_pos rfl]
  | cons d =>
    have hne : d ≠ quote := fun h => hrest (congrArg some h)
    rw [readQuoted, if_pos rfl, if_neg hne]

/-- A quoted text is read back, whatever it holds. -/
theorem readQuoted_doubled (text : List Char) :
    readQuoted quote (doubled quote text ++ quote :: rest) = some (text, rest) := by
  induction text with
  | nil => exact readQuoted_close quote rest hrest
  | cons c text ih =>
    by_cases hc : c = quote
    · rw [hc, doubled_quote, List.cons_append, List.cons_append, readQuoted, if_pos rfl, if_pos rfl,
        ih, Option.map_some]
    · rw [doubled_cons_of_ne quote text hc, List.cons_append]
      -- A character is read by itself, and there is a next one at any rate.
      obtain ⟨d, next, hnext⟩ := List.exists_cons_of_ne_nil
        (List.append_ne_nil_of_right_ne_nil (doubled quote text) (List.cons_ne_nil quote rest))
      rw [hnext, readQuoted, if_neg hc, ← hnext, ih, Option.map_some]

theorem stringLength_close : stringLength quote false (quote :: rest) = 1 := by
  cases rest with
  | nil => rfl
  | cons d =>
    have hne : d ≠ quote := fun h => hrest (congrArg some h)
    simp [stringLength, hne]

/-- The scanner takes the same quote for the closing one. -/
theorem stringLength_doubled (text : List Char) :
    stringLength quote false (doubled quote text ++ quote :: rest) =
      (doubled quote text).length + 1 := by
  induction text with
  | nil => exact stringLength_close quote rest hrest
  | cons c text ih =>
    by_cases hc : c = quote
    · rw [hc, doubled_quote, List.cons_append, List.cons_append, stringLength]
      simp only [decide_true, Bool.and_self, Bool.or_true, if_true, ih, List.length_cons]
      omega
    · rw [doubled_cons_of_ne quote text hc, List.cons_append]
      obtain ⟨d, next, hnext⟩ := List.exists_cons_of_ne_nil
        (List.append_ne_nil_of_right_ne_nil (doubled quote text) (List.cons_ne_nil quote rest))
      rw [hnext, stringLength, ← hnext]
      simp only [hc, Bool.false_and, decide_false, Bool.or_self, Bool.false_eq_true, if_false, ih,
        List.length_cons]
      omega

end

/-- A text in quotes. -/
def quoted (quote : Char) (text : List Char) : List Char :=
  quote :: (doubled quote text ++ [quote])

theorem unquoted_quoted : unquoted quote (quoted quote text) = some text := by
  have hread := readQuoted_doubled quote [] (by simp) text
  simp only [unquoted, quoted, if_true, hread]

/-- A quoted text begins with its quote. -/
theorem head_quoted (hquote : isSpace quote = false) :
    ∀ d ∈ (quoted quote text ++ rest).head?, isSpace d = false :=
  fun _ hd => Option.some.inj hd ▸ hquote

/-- A token that begins with a quote and was measured as a quoted text. -/
theorem tokens_quoted {kind : TokenKind} (text : List Char) {rest : List Char}
    (hrest : rest.head? ≠ some quote)
    (hmeasure : ∀ l, measure quote l = (kind, 1 + stringLength quote false l)) :
    tokens (quoted quote text ++ rest) = ⟨kind, quoted quote text⟩ :: tokens rest := by
  have hshape : quoted quote text ++ rest = quote :: (doubled quote text ++ quote :: rest) := by
    rw [quoted, List.cons_append, List.append_assoc, List.singleton_append]
  have hlength : 1 + stringLength quote false (doubled quote text ++ quote :: rest) =
      (quoted quote text).length := by
    rw [stringLength_doubled quote rest hrest text, quoted, List.length_cons, List.length_append,
      List.length_singleton]
    omega
  rw [hshape, tokens_cons, hmeasure, hlength, ← hshape, List.take_left, List.drop_left]

/-- A string constant. -/
theorem tokens_string (hrest : rest.head? ≠ some apostrophe) :
    tokens (quoted apostrophe text ++ rest) =
      ⟨.string, quoted apostrophe text⟩ :: tokens rest :=
  tokens_quoted apostrophe text hrest (fun _ => rfl)

/-- A quoted identifier. -/
theorem tokens_quotedIdent (hrest : rest.head? ≠ some '"') :
    tokens (quoted '"' text ++ rest) = ⟨.quotedIdent, quoted '"' text⟩ :: tokens rest :=
  tokens_quoted '"' text hrest (fun _ => rfl)

/-- A quoted identifier and one space behind it. -/
theorem tokens_quotedIdent_space (hrest : ∀ d ∈ rest.head?, isSpace d = false) :
    tokens (quoted '"' text ++ ([' '] ++ rest)) =
      ⟨.quotedIdent, quoted '"' text⟩ :: ⟨.space, [' ']⟩ :: tokens rest := by
  have hspace : ([' '] ++ rest).head? ≠ some '"' := fun h => absurd (Option.some.inj h) (by decide)
  rw [tokens_quotedIdent text _ hspace, tokens_space (List.cons_ne_nil _ _) (by decide) hrest]

end SqlScanner
