import CoopDB.Lib.SqlScanner
import CoopDB.Theory.Renumber.Chunks

/-!
# What Renumbering Touches

`_renumber` is meant to change placeholders and nothing else. It takes every
dollar sign in front of a digit for one, also inside a string, a comment or an
identifier, where Postgres sees no parameter. And it takes for a digit what Python
does, which is more than Postgres does, and more than `int` converts.

The output is compared with the text piece by piece. The loop uses up the text
from left to right, so each piece of the output stands for a known stretch of the
text.

A placeholder outside of all parameter tokens does no harm if its new number is
the one it has. That happens: `SELECT '$1 off'` on its own is copied as it is.

## Main definitions

* `placed`: Consecutive stretches, each with where it starts.
* `InParam`: A stretch of the text lies inside a parameter token.
* `TouchesOnlyParams`: A stretch that is not copied as it is lies inside one.
* `HarmlessRun`: A run that converts, and is a parameter or keeps its number.

## Theorems

* `mem_placed_pieces`, `piece_changed_iff`: Where a piece stands, and when it is changed.
* `touches_only_params_iff`: Nothing but parameters is changed exactly if every run of
  digits behind a dollar sign is harmless.
* `literal_renumbered`: A string that is changed, and a text that raises.
-/

namespace CoopDB

open SqlScanner (Scanner Token postgres)

/-- Consecutive stretches of a text, each with where it starts. -/
def placed {α : Type} (text : α → List Char) : Nat → List α → List (Nat × α)
  | _, [] => []
  | offset, a :: as => (offset, a) :: placed text (offset + (text a).length) as

/-- The stretch lies inside a token that is read as a parameter. -/
def InParam (scanner : Scanner) (text : List Char) (offset length : Nat) : Prop :=
  ∃ first token, (first, token) ∈ placed Token.text 0 (scanner.scan text) ∧ token.kind = .param ∧
    first ≤ offset ∧ offset + length ≤ first + token.text.length

/-- `_renumber` does not raise, and where its output differs from the text, the
    text is part of a parameter. -/
def TouchesOnlyParams (scanner : Scanner) (py : PyDigits) (sql : String) (start : Int) : Prop :=
  ∃ ps s, renumberLoop py sql.toList.length sql.toList { nextIdx := start, placeholders := [] }
      = some (ps, s) ∧
    ∀ offset p, (offset, p) ∈ placed Piece.source 0 ps → p.output ≠ p.source →
      InParam scanner sql.toList offset p.source.length

/-- The numbers of the placeholders in the order in which they first appear. -/
def firstNumbers (py : PyDigits) (text : List Char) : List Nat :=
  appearance ((numbers py (chunks py.isdigit text)).getD [])

/-- A run of digits that `int` converts, and that either is part of a parameter or
    is the number it is going to get. -/
def HarmlessRun (scanner : Scanner) (py : PyDigits) (text : List Char) (start : Int) (offset : Nat)
    (digits : List Char) : Prop :=
  ∃ n, py.int digits = some n ∧
    (InParam scanner text offset (digits.length + 1) ∨
      '$' :: digits = dollar (start + (firstNumbers py text).idxOf n + 1))

theorem placed_map {α β : Type} (text : α → List Char) (text' : β → List Char) (f : α → β)
    (h : ∀ a, text' (f a) = text a) (as : List α) : ∀ offset,
      placed text' offset (as.map f) = (placed text offset as).map fun p => (p.1, f p.2) := by
  induction as with
  | nil => exact fun offset => rfl
  | cons a as ih => exact fun offset => by simp [placed, h, ih]

theorem mem_of_mem_placed {α : Type} {text : α → List Char} {as : List α} :
    ∀ (offset first : Nat) (a : α), (first, a) ∈ placed text offset as → a ∈ as := by
  induction as with
  | nil => exact fun offset first a h => absurd h List.not_mem_nil
  | cons b as ih =>
    intro offset first a h
    rcases List.mem_cons.mp h with heq | h
    · rw [(Prod.mk.inj heq).2]
      exact List.mem_cons_self
    · exact List.mem_cons_of_mem _ (ih _ first a h)

theorem mem_placed_of_mem {α : Type} (text : α → List Char) (as : List α) :
    ∀ (offset : Nat) (a : α), a ∈ as → ∃ first, (first, a) ∈ placed text offset as := by
  induction as with
  | nil => exact fun offset a h => absurd h List.not_mem_nil
  | cons b as ih =>
    intro offset a h
    rcases List.mem_cons.mp h with rfl | h
    · exact ⟨offset, List.mem_cons_self⟩
    · rcases ih (offset + (text b).length) a h with ⟨first, hfirst⟩
      exact ⟨first, List.mem_cons_of_mem _ hfirst⟩

section

variable (scanner : Scanner) (py : PyDigits)

/-- The source of a piece is the chunk it stands for. -/
theorem piece_source (start : Int) (seen : List Nat) (c : Chunk) :
    (c.piece py start seen).source = c.source := by
  cases c <;> rfl

/-- Where every run converts, a piece stands where its chunk does. -/
theorem mem_placed_pieces (text : List Char) (start : Int) (ns : List Nat) (offset : Nat)
    (p : Piece) : (offset, p) ∈ placed Piece.source 0 (pieces py text start ns) ↔
      ∃ c, (offset, c) ∈ placed Chunk.source 0 (chunks py.isdigit text) ∧
        c.piece py start (appearance ns) = p := by
  rw [pieces, placed_map Chunk.source Piece.source _ (piece_source py start _), List.mem_map]
  constructor
  · rintro ⟨⟨first, c⟩, hc, heq⟩
    rcases Prod.mk.inj heq with ⟨rfl, hpiece⟩
    exact ⟨c, hc, hpiece⟩
  · rintro ⟨c, hc, rfl⟩
    exact ⟨(offset, c), hc, rfl⟩

/-- A run is changed exactly if it does not keep its number. -/
theorem piece_changed_iff {text : List Char} (start : Int) {ns : List Nat}
    (hns : numbers py (chunks py.isdigit text) = some ns) {digits : List Char} {n : Nat}
    (hn : py.int digits = some n) :
    ((Chunk.run digits).piece py start (appearance ns)).output ≠
        ((Chunk.run digits).piece py start (appearance ns)).source ↔
      '$' :: digits ≠ dollar (start + (firstNumbers py text).idxOf n + 1) := by
  simp only [Chunk.piece, hn, Option.getD_some, firstNumbers, hns]
  exact ne_comm

/-- `_renumber` returns and changes nothing but parameters if and only if every
    dollar sign with a run of digits after it converts, and is read as a parameter
    or keeps its number. -/
theorem touches_only_params_iff (sql : String) (start : Int) :
    TouchesOnlyParams scanner py sql start ↔
      ∀ offset digits, (offset, Chunk.run digits) ∈
          placed Chunk.source 0 (chunks py.isdigit sql.toList) →
        HarmlessRun scanner py sql.toList start offset digits := by
  unfold TouchesOnlyParams
  by_cases hsome : ∃ ns, numbers py (chunks py.isdigit sql.toList) = some ns
  · rcases hsome with ⟨ns, hns⟩
    rcases renumberLoop_of_numbers py start hns with ⟨s', hs', _⟩
    constructor
    · rintro ⟨ps, s, hps, htouch⟩ offset digits hrun
      rw [hs', Option.some.injEq, Prod.mk.injEq] at hps
      rw [← hps.1] at htouch
      rcases (numbers_isSome_iff py _).mp ⟨ns, hns⟩ digits (mem_of_mem_placed _ _ _ hrun) with
        ⟨n, hn⟩
      refine ⟨n, hn, ?_⟩
      by_cases hkept : '$' :: digits = dollar (start + (firstNumbers py sql.toList).idxOf n + 1)
      · exact .inr hkept
      · -- The run is changed, so it has to be inside a parameter.
        have hpiece := (mem_placed_pieces py _ start ns offset _).mpr ⟨_, hrun, rfl⟩
        exact .inl (htouch offset _ hpiece ((piece_changed_iff py start hns hn).mpr hkept))
    · intro hrun
      refine ⟨_, s', hs', fun offset p hp hne => ?_⟩
      rcases (mem_placed_pieces py _ start ns offset p).mp hp with ⟨c, hc, rfl⟩
      cases c with
      | char => exact absurd rfl hne
      | run digits =>
        rcases hrun offset digits hc with ⟨n, hn, hparam | hkept⟩
        · exact hparam
        · exact absurd hkept ((piece_changed_iff py start hns hn).mp hne)
  · -- Some run does not convert, so the loop raises and the run is not harmless.
    have hnone : numbers py (chunks py.isdigit sql.toList) = none :=
      Option.eq_none_iff_forall_not_mem.mpr fun ns hns => hsome ⟨ns, hns⟩
    rw [renumberLoop_of_none py _ _ hnone]
    constructor
    · rintro ⟨ps, s, h, _⟩
      cases h
    · intro hrun
      refine absurd ((numbers_isSome_iff py _).mpr fun digits hdigits => ?_) hsome
      rcases mem_placed_of_mem Chunk.source _ 0 _ hdigits with ⟨offset, hoffset⟩
      rcases hrun offset digits hoffset with ⟨n, hn, _⟩
      exact ⟨n, hn⟩

end

/-- A price in a string is renumbered although the statement has no parameter,
    and a superscript after a dollar sign raises. -/
theorem literal_renumbered :
    renumber cpython311 "SELECT '$2 off'" 0 = some ("SELECT '$1 off'", 1) ∧
      (∀ t ∈ postgres.scan "SELECT '$2 off'".toList, t.kind ≠ .param) ∧
      ¬ TouchesOnlyParams postgres cpython311 "SELECT '$2 off'" 0 ∧
      renumber cpython311 "SELECT '$²'" 0 = none ∧
      ¬ TouchesOnlyParams postgres cpython311 "SELECT '$²'" 0 := by
  have htokens : ∀ t ∈ postgres.scan "SELECT '$2 off'".toList, t.kind ≠ .param := by decide
  refine ⟨by decide, htokens, ?_, by decide +kernel, ?_⟩
  · rintro ⟨ps, s, hps, htouch⟩
    have hpieces : (renumberLoop cpython311 "SELECT '$2 off'".toList.length
        "SELECT '$2 off'".toList { nextIdx := 0, placeholders := [] }).map
        (fun p => (placed Piece.source 0 p.1).contains (8, ⟨['$', '2'], ['$', '1']⟩)) =
          some true := by
      decide
    rw [hps, Option.map_some, Option.some.injEq, List.contains_iff_mem] at hpieces
    rcases htouch _ _ hpieces (by decide) with ⟨first, token, hmem, hkind, _⟩
    exact htokens token (mem_of_mem_placed _ _ _ hmem) hkind
  · rintro ⟨ps, s, hps, _⟩
    have hnone : (renumberLoop cpython311 "SELECT '$²'".toList.length "SELECT '$²'".toList
        { nextIdx := 0, placeholders := [] }).isNone = true := by decide
    rw [hps, Option.isNone_some] at hnone
    exact absurd hnone (by decide)

end CoopDB
