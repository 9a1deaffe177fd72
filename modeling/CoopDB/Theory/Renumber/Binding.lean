import CoopDB.Theory.Json.Decode
import CoopDB.Theory.Renumber.Chunks

/-!
# Which Parameter a Placeholder Is Bound To

`TransactionBuilder.commit` puts the parameter lists one behind the other, by
position. `_renumber` gives the placeholders their new numbers in the order in
which they first appear. The two agree when the placeholders of every statement
first appear in the order `$1`, `$2`, and so on. In `UPDATE t SET v = $2 WHERE
id = $1` they do not, and the two values change places.

That binding is preserved means that the bindings of the combined statement are those
of the single ones, one behind the other. Most of the work is to read the combined text
back. A run that is replaced by another number keeps its chunk, and the words that
commit puts around a statement have no dollar sign in them.

## Main definitions

* `bindings`: The parameters a statement's placeholders are bound to, as they stand in the
  text.
* `Statement.Valid`, `Statement.Convertible`: A statement that is valid on its own, and
  one whose numbers `int` converts.
* `Statement.InOrder`: The parameters are listed in the order of their first use.
* `Chunked`: Chunks that can be written down and cut again without a change.

## Theorems

* `chunks_render`: Chunks are read back from their text.
* `occurrences_of_renumber`, `occurrences_combined`: The numbers in the output of
  `_renumber`, and in the combined text.
* `binding_preserved_iff`: Every placeholder keeps its parameter exactly if all statements
  are in order and convert.
* `swapped_update`: An update whose values change places.
-/

namespace CoopDB

/-- The number of a chunk, if it is a placeholder. -/
def Chunk.number : Chunk → Option Nat
  | .char _ => none
  | .run digits => some (Nat.ofDigitChars 10 digits 0)

/-- The numbers of the placeholders of a text, in order. -/
def occurrences (text : List Char) : List Nat :=
  (chunks Char.isDigit text).filterMap Chunk.number

/-- The parameter a number stands for. -/
def paramAt {α : Type} (params : List α) (n : Nat) : Option α :=
  if n = 0 then none else params[n - 1]?

/-- The parameters the placeholders of a statement are bound to, in order. -/
def bindings {α : Type} (s : Statement α) : List (Option α) :=
  (occurrences s.sql.toList).map (paramAt s.params)

/-- Every dollar sign with a digit after it is a placeholder, and the placeholders
    are those of the parameters. -/
def Statement.Valid {α : Type} (py : PyDigits) (s : Statement α) : Prop :=
  (∀ digits, Chunk.run digits ∈ chunks py.isdigit s.sql.toList → digits.all Char.isDigit = true) ∧
    ∀ n, n ∈ occurrences s.sql.toList ↔ 1 ≤ n ∧ n ≤ s.params.length

/-- No number is written with more digits than `int` converts. -/
def Statement.Convertible {α : Type} (py : PyDigits) (s : Statement α) : Prop :=
  ∀ digits, Chunk.run digits ∈ chunks py.isdigit s.sql.toList →
    ¬ (py.maxStrDigits ≠ 0 ∧ py.maxStrDigits < digits.length)

/-- The parameter of every placeholder stands where the placeholder comes in the
    order of first appearance. -/
def Statement.InOrder {α : Type} (s : Statement α) : Prop :=
  ∀ n ∈ occurrences s.sql.toList,
    s.params[(appearance (occurrences s.sql.toList)).idxOf n]? = paramAt s.params n

section Reading

variable (digit : Char → Bool)

/-- The first chunk is a digit. -/
def startsDigit : List Chunk → Bool
  | .char c :: _ => digit c
  | _ => false

/-- A run is not followed by a digit, and neither is a dollar sign. -/
def Chunked : List Chunk → Prop
  | [] => True
  | .char c :: cs => (c = '$' → startsDigit digit cs = false) ∧ Chunked cs
  | .run digits :: cs => digits ≠ [] ∧ digits.all digit = true ∧ startsDigit digit cs = false ∧
      Chunked cs

/-- The text of the chunks. -/
def render (cs : List Chunk) : List Char :=
  cs.flatMap Chunk.source

theorem startsDigit_chunks {text : List Char} (h : text.head?.any digit = false) :
    startsDigit digit (chunks digit text) = false := by
  cases text with
  | nil => rfl
  | cons c rest =>
    by_cases hrun : c = '$' ∧ rest.head?.any digit = true
    · rw [hrun.1, chunks_run hrun.2]
      rfl
    · rw [chunks_char c rest hrun]
      exact h

theorem head_dropWhile (text : List Char) : (text.dropWhile digit).head?.any digit = false := by
  induction text with
  | nil => rfl
  | cons c rest ih =>
    rw [List.dropWhile_cons]
    by_cases hc : digit c = true
    · rw [if_pos hc]
      exact ih
    · rw [if_neg hc]
      exact Bool.eq_false_iff.mpr hc

/-- What a text is cut into can be read back. -/
theorem chunked_chunks (text : List Char) : Chunked digit (chunks digit text) := by
  induction text using chunks_induction with
  | nil => exact trivial
  | run rest h ih =>
    rw [chunks_run h]
    refine ⟨?_, List.all_takeWhile, startsDigit_chunks digit (head_dropWhile digit rest), ih⟩
    rcases head_digit digit h with ⟨d, ds, rfl, hd⟩
    rw [List.takeWhile_cons_of_pos hd]
    exact List.cons_ne_nil _ _
  | char c rest h ih =>
    rw [chunks_char c rest h]
    refine ⟨fun hc => startsDigit_chunks digit ?_, ih⟩
    exact Bool.eq_false_iff.mpr fun hd => h ⟨hc, hd⟩

theorem head_render_append (hdollar : digit '$' = false) (cs : List Chunk) (rest : List Char)
    (hcs : startsDigit digit cs = false) (hrest : rest.head?.any digit = false) :
    (render cs ++ rest).head?.any digit = false := by
  cases cs with
  | nil => exact hrest
  | cons c =>
    cases c with
    | char => exact hcs
    | run => exact hdollar

theorem takeWhile_append_of_all {ds rest : List Char} (hds : ds.all digit = true)
    (hrest : rest.head?.any digit = false) :
    (ds ++ rest).takeWhile digit = ds ∧ (ds ++ rest).dropWhile digit = rest := by
  induction ds with
  | nil =>
    cases rest with
    | nil => exact ⟨rfl, rfl⟩
    | cons c =>
      have hc : ¬ digit c = true := Bool.eq_false_iff.mp hrest
      exact ⟨List.takeWhile_cons_of_neg hc, List.dropWhile_cons_of_neg hc⟩
  | cons d ds ih =>
    rw [List.all_cons, Bool.and_eq_true] at hds
    rcases ih hds.2 with ⟨htake, hdrop⟩
    rw [List.cons_append, List.takeWhile_cons_of_pos hds.1, List.dropWhile_cons_of_pos hds.1, htake,
      hdrop]
    exact ⟨rfl, rfl⟩

/-- Chunks are read back from their text, whatever comes after it, as long as that
    is no digit. -/
theorem chunks_render (hdollar : digit '$' = false) (rest : List Char)
    (hrest : rest.head?.any digit = false) (cs : List Chunk) (h : Chunked digit cs) :
    chunks digit (render cs ++ rest) = cs ++ chunks digit rest := by
  induction cs with
  | nil => rfl
  | cons c cs ih =>
    cases c with
    | char c =>
      have hhead := head_render_append digit hdollar cs rest
      have htext : render (.char c :: cs) ++ rest = c :: (render cs ++ rest) := rfl
      rw [htext, chunks_char c _ ?_, ih h.2, List.cons_append]
      -- A dollar sign that is a character has no digit after it.
      rintro ⟨hc, hd⟩
      rw [hhead (h.1 hc) hrest] at hd
      exact absurd hd (by decide)
    | run digits =>
      rcases h with ⟨hne, hall, hstart, hrec⟩
      have hhead := head_render_append digit hdollar cs rest hstart hrest
      rcases takeWhile_append_of_all digit hall hhead with ⟨htake, hdrop⟩
      have htext : render (.run digits :: cs) ++ rest = '$' :: (digits ++ (render cs ++ rest)) := by
        simp only [render, List.flatMap_cons, Chunk.source, List.cons_append, List.append_assoc]
      rw [htext, chunks_run ?_, htake, hdrop, ih hrec, List.cons_append]
      cases digits with
      | nil => exact absurd rfl hne
      | cons =>
        rw [List.all_cons, Bool.and_eq_true] at hall
        exact hall.1

/-- A text without a dollar sign is cut into its characters. -/
theorem chunks_append_of_no_dollar (text rest : List Char) (h : '$' ∉ text) :
    chunks digit (text ++ rest) = text.map .char ++ chunks digit rest := by
  induction text with
  | nil => rfl
  | cons c text ih =>
    rw [List.mem_cons, not_or] at h
    rw [List.cons_append, chunks_char c _ (fun hc => h.1 hc.1.symm), ih h.2, List.map_cons,
      List.cons_append]

end Reading

theorem occurrences_append_of_no_dollar (text rest : List Char) (h : '$' ∉ text) :
    occurrences (text ++ rest) = occurrences rest := by
  have hchars : (text.map Chunk.char).filterMap Chunk.number = [] := by
    rw [List.filterMap_map]
    exact List.filterMap_eq_nil_iff.mpr fun c _ => rfl
  rw [occurrences, chunks_append_of_no_dollar _ text rest h, List.filterMap_append, hchars,
    List.nil_append, occurrences]

section Numbers

variable (py : PyDigits)

theorem isdigit_of_isDigit (c : Char) (h : c.isDigit = true) : py.isdigit c = true := by
  have hrange := (isDigit_iff_toNat c).mp h
  rw [py.isdigit_ascii c (by omega), h]

/-- Where every run is of ASCII digits, Python cuts the text as Postgres does. -/
theorem chunks_isdigit {text : List Char}
    (h : ∀ digits, Chunk.run digits ∈ chunks py.isdigit text → digits.all Char.isDigit = true) :
    chunks py.isdigit text = chunks Char.isDigit text := by
  induction text using chunks_induction with
  | nil => rfl
  | run rest hrest ih =>
    rw [chunks_run hrest] at h ⊢
    -- The run is one of ASCII digits, and what comes after it is none.
    have hrun := h _ List.mem_cons_self
    have hend : (rest.dropWhile py.isdigit).head?.any Char.isDigit = false := by
      have hpy := head_dropWhile py.isdigit rest
      cases hdrop : rest.dropWhile py.isdigit with
      | nil => rfl
      | cons c =>
        rw [hdrop] at hpy
        refine Bool.eq_false_iff.mpr fun hc => ?_
        rw [List.head?_cons, Option.any_some, isdigit_of_isDigit py c hc] at hpy
        exact absurd hpy (by decide)
    rcases takeWhile_append_of_all Char.isDigit hrun hend with ⟨htake, hdrop⟩
    rw [List.takeWhile_append_dropWhile] at htake hdrop
    have hhead : rest.head?.any Char.isDigit = true := by
      rcases head_digit py.isdigit hrest with ⟨d, ds, rfl, hd⟩
      rw [List.takeWhile_cons_of_pos hd, List.all_cons, Bool.and_eq_true] at hrun
      exact hrun.1
    rw [chunks_run hhead, htake, hdrop, ih fun digits hd => h digits (List.mem_cons_of_mem _ hd)]
  | char c rest hc ih =>
    rw [chunks_char c rest hc] at h ⊢
    rw [chunks_char c rest ?_, ih fun digits hd => h digits (List.mem_cons_of_mem _ hd)]
    rintro ⟨heq, hhead⟩
    rcases head_digit Char.isDigit hhead with ⟨d, ds, rfl, hd⟩
    exact hc ⟨heq, isdigit_of_isDigit py d hd⟩

theorem mapM_decimal {digits : List Char} (h : digits.all Char.isDigit = true) :
    digits.mapM py.decimal = some (digits.map (·.toNat - 48)) := by
  induction digits with
  | nil => rfl
  | cons c digits ih =>
    rw [List.all_cons, Bool.and_eq_true] at h
    rw [List.mapM_cons, py.decimal_ascii c h.1, ih h.2]
    rfl

/-- `int` of ASCII digits is their number, if there are not too many. -/
theorem int_ascii {digits : List Char} (h : digits.all Char.isDigit = true) :
    py.int digits = if py.maxStrDigits ≠ 0 ∧ py.maxStrDigits < digits.length then none
      else some (Nat.ofDigitChars 10 digits 0) := by
  unfold PyDigits.int
  rw [mapM_decimal py h, Option.map_some, List.foldl_map]
  rfl

variable (start : Nat) (seen : List Nat) (cs : List Chunk)

/-- Of ASCII runs that convert, the numbers are those of the text. -/
theorem numbers_ascii (hascii : ∀ digits, Chunk.run digits ∈ cs → digits.all Char.isDigit = true)
    (hshort : ∀ digits, Chunk.run digits ∈ cs →
      ¬ (py.maxStrDigits ≠ 0 ∧ py.maxStrDigits < digits.length)) :
    numbers py cs = some (cs.filterMap Chunk.number) := by
  induction cs with
  | nil => rfl
  | cons c cs ih =>
    have hrec := ih (fun digits hd => hascii digits (List.mem_cons_of_mem _ hd))
      (fun digits hd => hshort digits (List.mem_cons_of_mem _ hd))
    cases c with
    | char => exact hrec
    | run digits =>
      rw [numbers, int_ascii py (hascii digits List.mem_cons_self),
        if_neg (hshort digits List.mem_cons_self), hrec]
      rfl

/-- What a placeholder becomes, read as a chunk. -/
def Chunk.renumbered (start : Nat) (seen : List Nat) : Chunk → Chunk
  | .char c => .char c
  | .run digits =>
    .run (Nat.toDigits 10 (start + seen.idxOf (Nat.ofDigitChars 10 digits 0) + 1))

theorem number_renumbered : (cs.map (Chunk.renumbered start seen)).filterMap Chunk.number
      = (cs.filterMap Chunk.number).map fun n => start + seen.idxOf n + 1 := by
  induction cs with
  | nil => rfl
  | cons c cs ih =>
    cases c with
    | char => exact ih
    | run =>
      simp only [List.map_cons, Chunk.renumbered, List.filterMap_cons, Chunk.number, ih,
        Nat.ofDigitChars_toDigits (show 1 < 10 by omega) (show 10 ≤ 10 by omega)]

theorem startsDigit_renumbered :
    startsDigit Char.isDigit (cs.map (Chunk.renumbered start seen)) =
      startsDigit Char.isDigit cs := by
  cases cs with
  | nil => rfl
  | cons c => cases c <;> rfl

/-- With another number in each place the chunks can still be read back. -/
theorem chunked_renumbered (h : Chunked Char.isDigit cs) :
    Chunked Char.isDigit (cs.map (Chunk.renumbered start seen)) := by
  induction cs with
  | nil => exact trivial
  | cons c cs ih =>
    cases c with
    | char =>
      refine ⟨fun hc => ?_, ih h.2⟩
      rw [startsDigit_renumbered]
      exact h.1 hc
    | run =>
      rcases h with ⟨_, _, hstart, hrec⟩
      refine ⟨Nat.toDigits_ne_nil, ?_, ?_, ih hrec⟩
      · exact List.all_eq_true.mpr fun c hc =>
          Nat.isDigit_of_mem_toDigits (by omega) (by omega) hc
      · rw [startsDigit_renumbered]
        exact hstart

theorem dollar_natCast (m : Nat) : dollar (m : Int) = '$' :: Nat.toDigits 10 m := by
  rw [dollar, Json.toList_toString_nat]

/-- The output of `_renumber` is the text of the renumbered chunks. -/
theorem output_eq_render (hascii : ∀ digits, Chunk.run digits ∈ cs → digits.all Char.isDigit = true)
    (hshort : ∀ digits, Chunk.run digits ∈ cs →
      ¬ (py.maxStrDigits ≠ 0 ∧ py.maxStrDigits < digits.length)) :
    (cs.map (Chunk.piece py start seen)).flatMap Piece.output
      = render (cs.map (Chunk.renumbered start seen)) := by
  rw [render, List.flatMap_map, List.flatMap_map]
  refine List.flatMap_congr fun c hc => ?_
  cases c with
  | char => rfl
  | run digits =>
    rw [Chunk.piece, int_ascii py (hascii digits hc), if_neg (hshort digits hc), Option.getD_some]
    exact dollar_natCast (start + seen.idxOf (Nat.ofDigitChars 10 digits 0) + 1)

end Numbers

section Statements

variable {α : Type} (py : PyDigits)

/-- The new numbers of a statement's placeholders. -/
def renumberedBy (start : Nat) (ns : List Nat) : List Nat :=
  ns.map fun n => start + (appearance ns).idxOf n + 1

/-- A text whose runs are of ASCII digits and convert is renumbered, and the new
    numbers can be read in the output. -/
theorem occurrences_of_renumber {sql : String}
    (hascii : ∀ digits, Chunk.run digits ∈ chunks py.isdigit sql.toList →
      digits.all Char.isDigit = true)
    (hshort : ∀ digits, Chunk.run digits ∈ chunks py.isdigit sql.toList →
      ¬ (py.maxStrDigits ≠ 0 ∧ py.maxStrDigits < digits.length)) (start : Nat) :
    ∃ text, renumber py sql start
        = some (text, ((start + (appearance (occurrences sql.toList)).length : Nat) : Int)) ∧
      ∀ rest : List Char, rest.head?.any Char.isDigit = false →
        occurrences (text.toList ++ rest)
          = renumberedBy start (occurrences sql.toList) ++ occurrences rest := by
  have hcut := chunks_isdigit py hascii
  have hnumbers := numbers_ascii py _ hascii hshort
  have hoccur : (chunks py.isdigit sql.toList).filterMap Chunk.number
      = occurrences sql.toList := by rw [hcut, occurrences]
  refine ⟨String.ofList ((pieces py sql.toList start (occurrences sql.toList)).flatMap
    Piece.output), ?_, fun rest hrest => ?_⟩
  · rw [renumber_eq, hnumbers, hoccur, Option.map_some, Int.natCast_add]
  · -- New digits in the places of the old ones leave the text cut where it was.
    have hchunked := chunked_renumbered start (appearance (occurrences sql.toList)) _
      (chunked_chunks Char.isDigit sql.toList)
    rw [pieces, output_eq_render py start _ _ hascii hshort, String.toList_ofList, hcut,
      occurrences, chunks_render Char.isDigit (by decide) rest hrest _ hchunked,
      List.filterMap_append, number_renumbered]
    rfl

/-- A run that `int` does not convert makes `_renumber` raise. -/
theorem renumber_of_long_run {sql : String}
    (hascii : ∀ digits, Chunk.run digits ∈ chunks py.isdigit sql.toList →
      digits.all Char.isDigit = true)
    (hlong : ¬ ∀ digits, Chunk.run digits ∈ chunks py.isdigit sql.toList →
      ¬ (py.maxStrDigits ≠ 0 ∧ py.maxStrDigits < digits.length)) (start : Int) :
    renumber py sql start = none := by
  rw [renumber_eq, Option.map_eq_none_iff]
  refine Option.eq_none_iff_forall_not_mem.mpr fun ns hns => hlong fun digits hd hdigits => ?_
  rcases (numbers_isSome_iff py _).mp ⟨ns, hns⟩ digits hd with ⟨n, hn⟩
  rw [int_ascii py (hascii digits hd), if_pos hdigits] at hn
  cases hn

/-- The new numbers of several statements. -/
def renumberedAll : Nat → List (Statement α) → List Nat
  | _, [] => []
  | start, s :: rest =>
    renumberedBy start (occurrences s.sql.toList) ++
      renumberedAll (start + (appearance (occurrences s.sql.toList)).length) rest

/-- How many numbers the statements use up. -/
def used : List (Statement α) → Nat
  | [] => 0
  | s :: rest => (appearance (occurrences s.sql.toList)).length + used rest

/-- The words around a query have no placeholder in them. -/
theorem occurrences_query (i : Nat) {text : String} {ms : List Nat} (rest : List Char)
    (h : ∀ rest : List Char, rest.head?.any Char.isDigit = false →
      occurrences (text.toList ++ rest) = ms ++ occurrences rest) :
    occurrences (("_agentcoopdb_w" ++ toString i ++ " AS (" ++ text ++ ")").toList ++ rest)
      = ms ++ occurrences rest := by
  have hnumber : '$' ∉ (toString i).toList := by
    rw [show toString i = toString (i : Int) from rfl, Json.toList_toString_nat]
    intro hmem
    have hdigit := Nat.isDigit_of_mem_toDigits (by omega) (by omega) hmem
    exact absurd hdigit (by decide)
  have hclose : occurrences (')' :: rest) = occurrences rest :=
    occurrences_append_of_no_dollar [')'] rest (by decide)
  rw [String.toList_append, String.toList_append, String.toList_append, String.toList_append,
    List.append_assoc, List.append_assoc, List.append_assoc, List.append_assoc,
    occurrences_append_of_no_dollar _ _ (by decide),
    occurrences_append_of_no_dollar _ _ hnumber,
    occurrences_append_of_no_dollar _ _ (by decide)]
  exact (h (')' :: rest) rfl).trans (by rw [hclose])

variable (init : List (Statement α))

/-- The queries of the `WITH` clause, and the numbers that can be read in them. -/
theorem ctes_eq (hvalid : ∀ s ∈ init, s.Valid py) (hconv : ∀ s ∈ init, s.Convertible py) :
    ∀ i start : Nat,
      ∃ queries, ctes py i start init
          = some (queries, init.flatMap Statement.params, ((start + used init : Nat) : Int)) ∧
        ∀ rest, occurrences ((", ".intercalate queries).toList ++ rest)
          = renumberedAll start init ++ occurrences rest := by
  induction init with
  | nil => exact fun i start => ⟨[], rfl, fun rest => rfl⟩
  | cons s init ih =>
    intro i start
    rcases occurrences_of_renumber py (hvalid s List.mem_cons_self).1
      (hconv s List.mem_cons_self) start with ⟨text, htext, hoccur⟩
    rcases ih (fun t ht => hvalid t (List.mem_cons_of_mem _ ht))
      (fun t ht => hconv t (List.mem_cons_of_mem _ ht)) (i + 1)
      (start + (appearance (occurrences s.sql.toList)).length) with ⟨queries, hqueries, hrest⟩
    refine ⟨("_agentcoopdb_w" ++ toString i ++ " AS (" ++ text ++ ")") :: queries, ?_,
      fun rest => ?_⟩
    · simp only [ctes, htext, hqueries, Option.bind_eq_bind, Option.bind_some, Option.pure_def,
        List.flatMap_cons, used, Nat.add_assoc]
    · rw [renumberedAll, List.append_assoc, ← hrest rest]
      -- The commas are between the queries, so the last one is apart.
      cases queries with
      | nil =>
        rw [String.intercalate_singleton, String.intercalate_nil]
        exact occurrences_query i rest hoccur
      | cons =>
        rw [String.intercalate_cons_cons, String.toList_append, String.toList_append,
          List.append_assoc, List.append_assoc, occurrences_query i _ hoccur,
          occurrences_append_of_no_dollar _ _ (by decide)]

/-- If some statement does not convert, the loop over the statements raises. -/
theorem ctes_of_not_convertible (hvalid : ∀ s ∈ init, s.Valid py)
    (hconv : ∃ s ∈ init, ¬ s.Convertible py) : ∀ (i : Nat) (start : Int),
      ctes py i start init = none := by
  induction init with
  | nil =>
    rcases hconv with ⟨s, hs, _⟩
    exact absurd hs List.not_mem_nil
  | cons s init ih =>
    intro i start
    by_cases hhere : s.Convertible py
    · have hlater : ∃ t ∈ init, ¬ t.Convertible py := by
        rcases hconv with ⟨t, ht, hnot⟩
        rcases List.mem_cons.mp ht with rfl | ht
        · exact absurd hhere hnot
        · exact ⟨t, ht, hnot⟩
      cases hren : renumber py s.sql start with
      | none => simp only [ctes, hren, Option.bind_eq_bind, Option.bind_none]
      | some =>
        simp only [ctes, hren, Option.bind_eq_bind, Option.bind_some,
          ih (fun t ht => hvalid t (List.mem_cons_of_mem _ ht)) hlater, Option.bind_none]
    · simp only [ctes, renumber_of_long_run py (hvalid s List.mem_cons_self).1 hhere,
        Option.bind_eq_bind, Option.bind_none]

theorem renumberedAll_append (last : List (Statement α)) :
    ∀ start, renumberedAll start (init ++ last)
      = renumberedAll start init ++ renumberedAll (start + used init) last := by
  induction init with
  | nil => exact fun start => rfl
  | cons s init ih =>
    intro start
    rw [List.cons_append, renumberedAll, renumberedAll, ih, List.append_assoc, used, Nat.add_assoc]

/-- The combined statement has the parameters of all, and the numbers that can be
    read in it are the new ones. -/
theorem occurrences_combined (last : Statement α) (hvalid : ∀ s ∈ init ++ [last], s.Valid py)
    (hconv : ∀ s ∈ init ++ [last], s.Convertible py) : ∃ full, combined py init last = some full ∧
      full.params = (init ++ [last]).flatMap Statement.params ∧
      occurrences full.sql.toList = renumberedAll 0 (init ++ [last]) := by
  have hinit : ∀ s ∈ init, s ∈ init ++ [last] := fun s hs => List.mem_append_left _ hs
  have hlast : last ∈ init ++ [last] := List.mem_append_right _ (List.mem_singleton.mpr rfl)
  rcases ctes_eq py init (fun s hs => hvalid s (hinit s hs)) (fun s hs => hconv s (hinit s hs)) 0 0
    with ⟨queries, hqueries, hoccur⟩
  rcases occurrences_of_renumber py (hvalid last hlast).1 (hconv last hlast) (0 + used init) with
    ⟨text, htext, hread⟩
  refine ⟨{ sql := "WITH " ++ ", ".intercalate queries ++ " " ++ text
            params := init.flatMap Statement.params ++ last.params }, ?_, ?_, ?_⟩
  · have hzero : ((0 : Nat) : Int) = 0 := rfl
    rw [hzero] at hqueries
    simp only [combined, hqueries, htext, Option.bind_eq_bind, Option.bind_some, Option.pure_def]
  · rw [List.flatMap_append, List.flatMap_singleton]
  · have hend := hread [] rfl
    rw [List.append_nil] at hend
    rw [renumberedAll_append, String.toList_append, String.toList_append, String.toList_append,
      List.append_assoc, List.append_assoc, occurrences_append_of_no_dollar _ _ (by decide),
      hoccur, occurrences_append_of_no_dollar _ _ (by decide), hend]
    rfl

/-- A valid statement has as many different placeholders as parameters. -/
theorem length_appearance (s : Statement α) (hvalid : s.Valid py) :
    (appearance (occurrences s.sql.toList)).length = s.params.length := by
  -- Both lists have the numbers from 1 to the number of parameters, each once.
  have hperm : (appearance (occurrences s.sql.toList)).Perm (List.range' 1 s.params.length) := by
    refine (List.perm_ext_iff_of_nodup (nodup_appearance _) List.nodup_range').mpr fun n => ?_
    rw [mem_appearance, hvalid.2 n, List.mem_range'_1]
    omega
  rw [hperm.length_eq, List.length_range']

/-- The parameter of a new number, found among the parameters of all. -/
theorem paramAt_renumbered (s : Statement α) (hvalid : s.Valid py) (before after : List α) (n : Nat)
    (hn : n ∈ occurrences s.sql.toList) :
    paramAt (before ++ s.params ++ after)
        (before.length + (appearance (occurrences s.sql.toList)).idxOf n + 1)
      = s.params[(appearance (occurrences s.sql.toList)).idxOf n]? := by
  have hlt : (appearance (occurrences s.sql.toList)).idxOf n < s.params.length := by
    rw [← length_appearance py s hvalid]
    exact List.idxOf_lt_length_of_mem ((mem_appearance _ n).mpr hn)
  rw [paramAt, if_neg (Nat.succ_ne_zero _), Nat.add_sub_cancel, List.append_assoc,
    List.getElem?_append_right (Nat.le_add_right _ _), Nat.add_sub_cancel_left,
    List.getElem?_append_left hlt]

/-- The new numbers of the statements are bound as before if and only if every
    statement lists its parameters in the order in which they are first used. -/
theorem bound_iff_inOrder {statements : List (Statement α)}
    (hvalid : ∀ s ∈ statements, s.Valid py) :
    ∀ before : List α,
      (renumberedAll before.length statements).map
          (paramAt (before ++ statements.flatMap Statement.params)) = statements.flatMap bindings ↔
        ∀ s ∈ statements, s.InOrder := by
  induction statements with
  | nil => exact fun before => ⟨fun _ s hs => absurd hs List.not_mem_nil, fun _ => rfl⟩
  | cons s rest ih =>
    intro before
    have hs := hvalid s List.mem_cons_self
    have hrec := ih (fun t ht => hvalid t (List.mem_cons_of_mem _ ht)) (before ++ s.params)
    -- The lists of one statement have one length, so they are compared one by one.
    have hhere : (renumberedBy before.length (occurrences s.sql.toList)).map
        (paramAt (before ++ s.params ++ rest.flatMap Statement.params)) = bindings s ↔
          s.InOrder := by
      rw [renumberedBy, List.map_map, bindings, List.map_inj_left]
      refine forall₂_congr fun n hn => ?_
      rw [Function.comp_apply, paramAt_renumbered py s hs before _ n hn]
    -- The next statement counts on from here, in both numberings.
    rw [List.length_append, ← length_appearance py s hs] at hrec
    rw [List.flatMap_cons, List.flatMap_cons, renumberedAll, List.map_append, ← List.append_assoc,
      List.forall_mem_cons, ← hhere, ← hrec]
    refine ⟨fun h => List.append_inj h ?_, fun h => by rw [h.1, h.2]⟩
    simp only [renumberedBy, bindings, List.length_map]

/-- The combined statement is not built if some number does not convert. -/
theorem combined_of_not_convertible (last : Statement α) (hvalid : ∀ s ∈ init ++ [last], s.Valid py)
    (hconv : ¬ ∀ s ∈ init ++ [last], s.Convertible py) : combined py init last = none := by
  by_cases hfirst : ∀ s ∈ init, s.Convertible py
  · have hlastconv : ¬ last.Convertible py := by
      intro hok
      refine hconv fun s hs => ?_
      rcases List.mem_append.mp hs with hs | hs
      · exact hfirst s hs
      · rw [List.mem_singleton.mp hs]
        exact hok
    have hlastvalid := hvalid last (List.mem_append_right _ (List.mem_singleton.mpr rfl))
    cases hctes : ctes py 0 0 init with
    | none => simp only [combined, hctes, Option.bind_eq_bind, Option.bind_none]
    | some =>
      simp only [combined, hctes, Option.bind_eq_bind, Option.bind_some,
        renumber_of_long_run py hlastvalid.1 hlastconv, Option.bind_none]
  · simp only [not_forall] at hfirst
    rcases hfirst with ⟨s, hs, hnot⟩
    rw [combined, ctes_of_not_convertible py init
      (fun s hs => hvalid s (List.mem_append_left _ hs)) ⟨s, hs, hnot⟩]
    rfl

/-- Two statements or more are sent as one. -/
theorem commit_eq_combined {statements : List (Statement α)} (hmany : 2 ≤ statements.length) :
    ∃ init last, statements = init ++ [last] ∧
      TransactionBuilder.commit py statements = .of (combined py init last) := by
  match statements, hmany with
  | s :: t :: rest, _ =>
    refine ⟨(s :: t :: rest).dropLast, (t :: rest).getLastD t, ?_, rfl⟩
    have hlast : (t :: rest).getLastD t = (s :: t :: rest).getLast (List.cons_ne_nil _ _) := by
      rw [List.getLastD_eq_getLast?, List.getLast?_eq_getLast_of_ne_nil (List.cons_ne_nil _ _),
        Option.getD_some, List.getLast_cons (List.cons_ne_nil t rest)]
    rw [hlast, List.dropLast_concat_getLast]

/-- For two or more statements that are valid on their own, `commit` sends a
    statement in which every placeholder is bound to the parameter it was bound to,
    if and only if each statement lists its parameters in the order in which its
    placeholders first use them, and no placeholder is written with more digits
    than `int` converts. -/
theorem binding_preserved_iff (statements : List (Statement α)) (hmany : 2 ≤ statements.length)
    (hvalid : ∀ s ∈ statements, s.Valid py) :
    (∃ full, TransactionBuilder.commit py statements = .executes full ∧
        bindings full = statements.flatMap bindings) ↔
      ∀ s ∈ statements, s.InOrder ∧ s.Convertible py := by
  rcases commit_eq_combined py hmany with ⟨init, last, rfl, hcommit⟩
  rw [hcommit]
  by_cases hconv : ∀ s ∈ init ++ [last], s.Convertible py
  · rcases occurrences_combined py init last hvalid hconv with ⟨full, hfull, hparams, hoccur⟩
    have hbound := bound_iff_inOrder py hvalid []
    rw [List.nil_append, List.length_nil] at hbound
    have hbindings : bindings full = (renumberedAll 0 (init ++ [last])).map
        (paramAt ((init ++ [last]).flatMap Statement.params)) := by
      rw [bindings, hoccur, hparams]
    simp only [hfull, Commit.of, Commit.executes.injEq, exists_eq_left', hbindings, hbound]
    exact ⟨fun h s hs => ⟨h s hs, hconv s hs⟩, fun h s hs => (h s hs).1⟩
  · -- Nothing is sent, so nothing is bound.
    simp only [combined_of_not_convertible py init last hvalid hconv, Commit.of, reduceCtorEq,
      false_and, exists_false, false_iff]
    exact fun h => hconv fun s hs => (h s hs).2

end Statements

/-- A statement is valid if it is cut into these chunks. -/
theorem valid_of_chunks {α : Type} {py : PyDigits} {s : Statement α}
    (hascii : ((chunks py.isdigit s.sql.toList).all fun c => c.source.tail.all Char.isDigit) = true)
    (hnumbers : ∀ n, n ∈ occurrences s.sql.toList ↔ 1 ≤ n ∧ n ≤ s.params.length) : s.Valid py :=
  ⟨fun digits hd => List.all_eq_true.mp hascii (.run digits) hd, hnumbers⟩

/-- An insert of one value. -/
def insertValue : Statement Nat :=
  { sql := "INSERT INTO log VALUES ($1)", params := [5] }

/-- An update that names its value first and its key last. -/
def updateByKey : Statement Nat :=
  { sql := "UPDATE t SET v = $2 WHERE id = $1", params := [7, 9] }

/-- The chunks and the placeholders of the two statements. -/
theorem insert_update_chunks :
    (((chunks cpython311.isdigit insertValue.sql.toList).all fun c =>
        c.source.tail.all Char.isDigit) = true ∧
      ((chunks cpython311.isdigit insertValue.sql.toList).all fun c =>
        decide (c.source.length ≤ 2)) = true ∧ occurrences insertValue.sql.toList = [1]) ∧
    ((chunks cpython311.isdigit updateByKey.sql.toList).all fun c =>
        c.source.tail.all Char.isDigit) = true ∧ occurrences updateByKey.sql.toList = [2, 1] := by
  decide

theorem insertValue_valid : insertValue.Valid cpython311 := by
  refine valid_of_chunks insert_update_chunks.1.1 fun n => ?_
  rw [insert_update_chunks.1.2.2, List.mem_singleton, show insertValue.params.length = 1 from rfl]
  omega

theorem updateByKey_valid : updateByKey.Valid cpython311 := by
  refine valid_of_chunks insert_update_chunks.2.1 fun n => ?_
  rw [insert_update_chunks.2.2, List.mem_cons, List.mem_singleton,
    show updateByKey.params.length = 2 from rfl]
  omega

/-- Two inserts are sent as one statement with their parameters in place. -/
theorem inserts_bound :
    2 ≤ [insertValue, insertValue].length ∧ (∀ s ∈ [insertValue, insertValue], s.Valid cpython311) ∧
      ∃ full, TransactionBuilder.commit cpython311 [insertValue, insertValue] = .executes full ∧
        bindings full = [insertValue, insertValue].flatMap bindings := by
  have hvalid : ∀ s ∈ [insertValue, insertValue], s.Valid cpython311 := by
    intro s hs
    rcases List.mem_cons.mp hs with rfl | hs
    · exact insertValue_valid
    · rw [List.mem_singleton.mp hs]
      exact insertValue_valid
  refine ⟨by decide, hvalid, ?_⟩
  refine (binding_preserved_iff cpython311 [insertValue, insertValue] (by decide) hvalid).mpr ?_
  have hgood : insertValue.InOrder ∧ insertValue.Convertible cpython311 := by
    constructor
    · intro n hn
      rw [insert_update_chunks.1.2.2] at hn ⊢
      rw [List.mem_singleton.mp hn]
      decide
    · intro digits hd hlong
      have hlen := of_decide_eq_true (List.all_eq_true.mp insert_update_chunks.1.2.1 _ hd)
      have hmax : cpython311.maxStrDigits = 4300 := rfl
      simp only [Chunk.source, List.length_cons] at hlen
      omega
  intro s hs
  rcases List.mem_cons.mp hs with rfl | hs
  · exact hgood
  · rw [List.mem_singleton.mp hs]
    exact hgood

/-- What is sent for an insert and an update by key. -/
def insertAndUpdate : Statement Nat :=
  { sql := "WITH _agentcoopdb_w0 AS (INSERT INTO log VALUES ($1)) UPDATE t SET v = $2 WHERE id = $3"
    params := [5, 7, 9] }

/-- In an insert and an update by key, the key is written where the value belongs
    and the value is taken for the key. -/
theorem swapped_update :
    (insertValue.Valid cpython311 ∧ updateByKey.Valid cpython311) ∧
      TransactionBuilder.commit cpython311 [insertValue, updateByKey] = .executes insertAndUpdate ∧
      bindings insertAndUpdate = [some 5, some 7, some 9] ∧
      [insertValue, updateByKey].flatMap bindings = [some 5, some 9, some 7] ∧
      ¬ ∃ full, TransactionBuilder.commit cpython311 [insertValue, updateByKey] = .executes full ∧
        bindings full = [insertValue, updateByKey].flatMap bindings := by
  have hcommit : TransactionBuilder.commit cpython311 [insertValue, updateByKey]
      = .executes insertAndUpdate := by decide
  have hsent : bindings insertAndUpdate = [some 5, some 7, some 9] := by decide
  have hmeant : [insertValue, updateByKey].flatMap bindings = [some 5, some 9, some 7] := by
    decide
  refine ⟨⟨insertValue_valid, updateByKey_valid⟩, hcommit, hsent, hmeant, ?_⟩
  rintro ⟨full, hfull, hbound⟩
  have heq : insertAndUpdate = full := Commit.executes.inj (hcommit.symm.trans hfull)
  rw [← heq, hsent, hmeant] at hbound
  exact absurd hbound (by decide)

end CoopDB
