import Mathlib.Data.List.Basic

/-!
# Regular Expressions That Backtrack

Expressions as Perl and RE2 read them: an alternative that comes first is preferred,
a repetition takes as much as it can, or as little if it is lazy, and the first match
from the left is the match. Only single characters are repeated, so a repetition is a
run of characters of one kind and nothing can loop.

`run` lists all ways to match at a place, the preferred one first. What a way has
consumed is a word of the language of the expression. A search for all matches goes
on behind the one it has found, so that it misses a match that begins inside another.

## Main definitions

* `Re`, `Cursor`, `run`: Expressions, places in a text, and the ways to match.
* `Lang`: What an expression may consume.
* `matchString`, `findAll`: Whether there is a match, and the matches of a search.
* `canon`, `word`: Letters without regard to case, and a literal.

## Theorems

* `run_lang`: A way to match consumes a word of the language.
* `lang_word_iff`: A literal matches the texts with the same letters.
-/

namespace Regex

/-- Expressions. -/
inductive Re
  | empty
  | one (p : Char → Bool)
  | many (p : Char → Bool) (least : Nat) (lazy : Bool)
  | seq (first second : Re)
  | optional (r : Re)
  | group (r : Re)
  | lineStart
  | wordEdge

/-- A place in a text: what is before it, the nearest first, what is ahead, and the
    groups that are matched. -/
structure Cursor where
  before : List Char
  ahead : List Char
  groups : List (List Char)

/-- The place some characters on. -/
def Cursor.skip (s : Cursor) (n : Nat) : Cursor :=
  { s with before := (s.ahead.take n).reverse ++ s.before, ahead := s.ahead.drop n }

/-- A letter, a digit or an underscore. -/
def isWordChar (c : Char) : Bool :=
  c.isAlphanum || c = '_'

/-- The ways to match, the preferred one first. -/
def run : Re → Cursor → List Cursor
  | .empty, s => [s]
  | .one p, s => if s.ahead.head?.any p then [s.skip 1] else []
  | .many p least lazy, s =>
    let counts := (List.range ((s.ahead.takeWhile p).length + 1)).filter (least ≤ ·)
    (if lazy then counts else counts.reverse).map s.skip
  | .seq first second, s => (run first s).flatMap (run second)
  | .optional r, s => run r s ++ [s]
  | .group r, s => (run r s).map fun s' =>
    { s' with groups := s'.groups ++ [s.ahead.take (s.ahead.length - s'.ahead.length)] }
  | .lineStart, s => if s.before.head?.all (· = '\n') then [s] else []
  | .wordEdge, s =>
    if s.before.head?.any isWordChar ≠ s.ahead.head?.any isWordChar then [s] else []

/-- What an expression may consume. -/
def Lang : Re → List Char → Prop
  | .empty, m => m = []
  | .one p, m => ∃ c, m = [c] ∧ p c = true
  | .many p least _, m => m.all p = true ∧ least ≤ m.length
  | .seq first second, m => ∃ x y, m = x ++ y ∧ Lang first x ∧ Lang second y
  | .optional r, m => m = [] ∨ Lang r m
  | .group r, m => Lang r m
  | .lineStart, m => m = []
  | .wordEdge, m => m = []

/-- The place with a number of characters before it. -/
def start (text : List Char) (i : Nat) : Cursor :=
  ⟨(text.take i).reverse, text.drop i, []⟩

/-- The first match from a place on. -/
def findFrom (r : Re) (before : List Char) : List Char → Option Cursor
  | [] => (run r ⟨before, [], []⟩).head?
  | c :: ahead =>
    match run r ⟨before, c :: ahead, []⟩ with
    | s :: _ => some s
    | [] => findFrom r (c :: before) ahead

/-- There is a match. -/
def matchString (r : Re) (text : List Char) : Bool :=
  (findFrom r [] text).isSome

/-- The matches from a place on, at most so many. -/
def findAllFrom (r : Re) : Nat → List Char → List Char → List Cursor
  | 0, _, _ => []
  | fuel + 1, before, ahead =>
    match findFrom r before ahead with
    | none => []
    | some s => s :: findAllFrom r fuel s.before s.ahead

/-- All matches, of an expression that consumes a character at least. -/
def findAll (r : Re) (text : List Char) : List Cursor :=
  findAllFrom r (text.length + 1) [] text

/-- The letter that stands for all that differ from it by case: besides capitals, the
    long s and the Kelvin sign. -/
def canon (c : Char) : Char :=
  if c = '\u017F' then 's' else if c = '\u212A' then 'k' else c.toLower

/-- A literal, without regard to case. -/
def word (text : List Char) : Re :=
  text.foldr (fun c r => .seq (.one fun d => canon c = canon d) r) .empty

/-- Expressions one after the other. -/
def all (rs : List Re) : Re :=
  rs.foldr .seq .empty

/-! ### What is consumed -/

theorem skip_eq (s : Cursor) (n : Nat) :
    s.ahead = s.ahead.take n ++ (s.skip n).ahead ∧
      (s.skip n).before = (s.ahead.take n).reverse ++ s.before :=
  ⟨(List.take_append_drop n s.ahead).symm, rfl⟩

/-- A way to match consumes a word of the language. -/
theorem run_lang (r : Re) (s s' : Cursor) (h : s' ∈ run r s) :
    ∃ m, Lang r m ∧ s.ahead = m ++ s'.ahead ∧ s'.before = m.reverse ++ s.before := by
  induction r generalizing s s' with
  | empty =>
    rw [run, List.mem_singleton] at h
    exact ⟨[], rfl, h ▸ rfl, h ▸ rfl⟩
  | one =>
    rw [run] at h
    split at h
    case isTrue hp =>
        rw [List.mem_singleton.mp h]
        refine ⟨s.ahead.take 1, ?_, skip_eq s 1⟩
        cases hahead : s.ahead with
        | nil => simp only [hahead, List.head?_nil, Option.any_none, Bool.false_eq_true] at hp
        | cons c =>
          rw [hahead] at hp
          exact ⟨c, rfl, hp⟩
    case isFalse => exact absurd h List.not_mem_nil
  | many p least lazy =>
    have hmem : ∃ n, n ≤ (s.ahead.takeWhile p).length ∧ least ≤ n ∧ s' = s.skip n := by
      rw [run] at h
      cases lazy <;>
        simp only [Bool.false_eq_true, if_false, if_true, List.mem_map, List.mem_reverse,
          List.mem_filter, List.mem_range, decide_eq_true_eq] at h <;>
        obtain ⟨n, ⟨hn, hleast⟩, rfl⟩ := h <;>
        exact ⟨n, Nat.le_of_lt_succ hn, hleast, rfl⟩
    obtain ⟨n, hn, hleast, rfl⟩ := hmem
    -- The characters that are taken are some of those at the front.
    have htake : s.ahead.take n = (s.ahead.takeWhile p).take n := by
      rw [List.prefix_iff_eq_take.mp (List.takeWhile_prefix p), List.take_take, Nat.min_eq_left hn]
    refine ⟨s.ahead.take n, ⟨?_, ?_⟩, skip_eq s n⟩
    · rw [htake, List.all_eq_true]
      exact fun c hc => List.all_eq_true.mp List.all_takeWhile c (List.mem_of_mem_take hc)
    · rw [htake, List.length_take, Nat.min_eq_left hn]
      exact hleast
  | seq first second ihfirst ihsecond =>
    rw [run, List.mem_flatMap] at h
    obtain ⟨s₁, hfirst, hsecond⟩ := h
    obtain ⟨x, hx, hahead, hbefore⟩ := ihfirst s s₁ hfirst
    obtain ⟨y, hy, hahead', hbefore'⟩ := ihsecond s₁ s' hsecond
    refine ⟨x ++ y, ⟨x, y, rfl, hx, hy⟩, ?_, ?_⟩
    · rw [hahead, hahead', List.append_assoc]
    · rw [hbefore', hbefore, List.reverse_append, List.append_assoc]
  | optional r ih =>
    rw [run, List.mem_append, List.mem_singleton] at h
    rcases h with h | rfl
    · obtain ⟨m, hm, hrest⟩ := ih s s' h
      exact ⟨m, .inr hm, hrest⟩
    · exact ⟨[], .inl rfl, rfl, rfl⟩
  | group r ih =>
    rw [run, List.mem_map] at h
    obtain ⟨s₁, h, rfl⟩ := h
    exact ih s s₁ h
  | lineStart | wordEdge =>
    rw [run] at h
    split at h
    · exact ⟨[], rfl, List.mem_singleton.mp h ▸ rfl, List.mem_singleton.mp h ▸ rfl⟩
    · exact absurd h List.not_mem_nil

/-- A literal matches the texts with the same letters. -/
theorem lang_word_iff (text m : List Char) :
    Lang (word text) m ↔ m.map canon = text.map canon := by
  induction text generalizing m with
  | nil => simp [word, Lang]
  | cons c text ih =>
    have hstep : Lang (word (c :: text)) m ↔
        ∃ x y, m = x ++ y ∧ (∃ d, x = [d] ∧ decide (canon c = canon d) = true) ∧
          Lang (word text) y := Iff.rfl
    rw [hstep]
    constructor
    · rintro ⟨x, y, rfl, ⟨d, rfl, hd⟩, hy⟩
      rw [List.singleton_append, List.map_cons, List.map_cons, (ih y).mp hy, of_decide_eq_true hd]
    · intro h
      cases m with
      | nil => cases h
      | cons d rest =>
        rw [List.map_cons, List.map_cons, List.cons.injEq] at h
        exact ⟨[d], rest, rfl, ⟨d, rfl, decide_eq_true h.1.symm⟩, (ih rest).mpr h.2⟩

end Regex
