import CoopDB.Core.Renumber
import Mathlib.Data.List.Nodup

/-!
# What Renumbering Comes To

`_renumber` does two things in one loop: it cuts the text into placeholders and
single characters, and it hands out numbers. Here they are taken apart. The cut
depends on nothing but what counts as a digit. Handing out numbers depends on nothing
but the numbers met so far, in the order in which each was met first. The placeholder
`$n` becomes the position of `n` in that list, counted on from the start index.

## Main definitions

* `Chunk`, `chunks`: The text cut at its placeholders.
* `see`, `appearance`: The numbers in the order of their first appearance.
* `numbers`: The numbers of the placeholders, if every one of them converts.
* `Numbered`: The dictionary after some numbers have been met.

## Theorems

* `chunks_run`, `chunks_char`, `chunks_induction`: The cut, one chunk at a time.
* `number_cases`, `numberChunks_eq`: One number is handed out, and all of them.
* `renumberLoop_eq`, `renumberLoop_of_numbers`, `renumber_eq`: The closed form: it raises
  exactly if a run of digits does not convert, and else maps every chunk by itself.
-/

namespace CoopDB

/-- A single character, or a dollar sign with a run of digits. -/
inductive Chunk
  | char (c : Char)
  | run (digits : List Char)
  deriving DecidableEq, Repr

/-- The characters of a chunk. -/
def Chunk.source : Chunk → List Char
  | .char c => [c]
  | .run digits => '$' :: digits

section Cut

variable (digit : Char → Bool)

/-- The text cut at its placeholders, with fuel. -/
def chunksFrom : Nat → List Char → List Chunk
  | 0, _ => []
  | _ + 1, [] => []
  | fuel + 1, c :: rest =>
    if c = '$' ∧ rest.head?.any digit = true then
      .run (rest.takeWhile digit) :: chunksFrom fuel (rest.dropWhile digit)
    else .char c :: chunksFrom fuel rest

/-- The text cut at its placeholders. -/
def chunks (text : List Char) : List Chunk :=
  chunksFrom digit text.length text

/-- A text whose first character is a digit. -/
theorem head_digit {text : List Char} (h : text.head?.any digit = true) :
    ∃ d rest, text = d :: rest ∧ digit d = true := by
  cases text with
  | nil => exact absurd h (by simp [List.head?_nil])
  | cons d rest => exact ⟨d, rest, rfl, h⟩

theorem length_dropWhile_le (text : List Char) : (text.dropWhile digit).length ≤ text.length :=
  (List.dropWhile_suffix digit).length_le

/-- More fuel than characters makes no difference. -/
theorem chunksFrom_of_le (fuel : Nat) : ∀ (more : Nat) (text : List Char), text.length ≤ fuel →
    fuel ≤ more → chunksFrom digit fuel text = chunksFrom digit more text := by
  induction fuel with
  | zero =>
    intro more text hle _
    rw [List.length_eq_zero_iff.mp (Nat.le_zero.mp hle)]
    cases more <;> rfl
  | succ fuel ih =>
    intro more text hle hmore
    rcases more with _ | more
    · omega
    cases text with
    | nil => rfl
    | cons c rest =>
      have hrest : rest.length ≤ fuel := Nat.le_of_succ_le_succ hle
      have hdrop := length_dropWhile_le digit rest
      simp only [chunksFrom, ih more (rest.dropWhile digit) (by omega) (by omega),
        ih more rest hrest (by omega)]

variable {digit}

/-- A dollar sign and a digit start a placeholder. -/
theorem chunks_run {rest : List Char} (h : rest.head?.any digit = true) :
    chunks digit ('$' :: rest) =
      .run (rest.takeWhile digit) :: chunks digit (rest.dropWhile digit) := by
  have hdrop := length_dropWhile_le digit rest
  rw [chunks, List.length_cons, chunksFrom, if_pos ⟨rfl, h⟩, chunks,
    chunksFrom_of_le digit _ rest.length _ (Nat.le_refl _) hdrop]

/-- Anything else is a character. -/
theorem chunks_char (c : Char) (rest : List Char)
    (h : ¬ (c = '$' ∧ rest.head?.any digit = true)) :
    chunks digit (c :: rest) = .char c :: chunks digit rest := by
  rw [chunks, List.length_cons, chunksFrom, if_neg h, chunks]

/-- To prove something of every text, prove it of the empty one, for a placeholder
    in front of a text, and for a character in front of one. -/
theorem chunks_induction (P : List Char → Prop) (nil : P [])
    (run : ∀ rest, rest.head?.any digit = true → P (rest.dropWhile digit) → P ('$' :: rest))
    (char : ∀ c rest, ¬ (c = '$' ∧ rest.head?.any digit = true) → P rest → P (c :: rest)) :
    ∀ text, P text := by
  -- A placeholder takes more than one character off, so the induction is on a
  -- bound of the length.
  have hlen : ∀ n, ∀ text : List Char, text.length ≤ n → P text := by
    intro n
    induction n with
    | zero =>
      intro text hle
      rw [List.length_eq_zero_iff.mp (Nat.le_zero.mp hle)]
      exact nil
    | succ n ih =>
      intro text hle
      cases text with
      | nil => exact nil
      | cons c rest =>
        have hrest : rest.length ≤ n := Nat.le_of_succ_le_succ hle
        by_cases hrun : c = '$' ∧ rest.head?.any digit = true
        · rw [hrun.1]
          exact run rest hrun.2 (ih _ (Nat.le_trans (length_dropWhile_le digit rest) hrest))
        · exact char c rest hrun (ih rest hrest)
  exact fun text => hlen text.length text (Nat.le_refl _)

end Cut

/-- A number is met: it goes to the end unless it was met before. -/
def see (seen : List Nat) (n : Nat) : List Nat :=
  if n ∈ seen then seen else seen ++ [n]

/-- The numbers in the order of their first appearance. -/
def appearance (ns : List Nat) : List Nat :=
  ns.foldl see []

theorem mem_see (seen : List Nat) (n m : Nat) : m ∈ see seen n ↔ m ∈ seen ∨ m = n := by
  unfold see
  by_cases h : n ∈ seen
  · rw [if_pos h]
    exact ⟨.inl, fun hm => hm.elim id (fun heq => heq ▸ h)⟩
  · rw [if_neg h, List.mem_append, List.mem_singleton]

/-- Meeting more numbers leaves the positions of the earlier ones. -/
theorem idxOf_foldl_see (ns : List Nat) : ∀ (seen : List Nat) (n : Nat), n ∈ seen →
    (ns.foldl see seen).idxOf n = seen.idxOf n := by
  induction ns with
  | nil => exact fun seen n _ => rfl
  | cons m ns ih =>
    intro seen n hn
    rw [List.foldl_cons, ih (see seen m) n ((mem_see seen m n).mpr (.inl hn))]
    unfold see
    by_cases hm : m ∈ seen
    · rw [if_pos hm]
    · rw [if_neg hm, List.idxOf_append_of_mem hn]

theorem mem_foldl_see (ns : List Nat) : ∀ (seen : List Nat) (n : Nat),
    n ∈ ns.foldl see seen ↔ n ∈ seen ∨ n ∈ ns := by
  induction ns with
  | nil => exact fun seen n => by simp
  | cons m ns ih =>
    intro seen n
    rw [List.foldl_cons, ih (see seen m) n, mem_see, List.mem_cons, or_assoc]

theorem nodup_see (seen : List Nat) (n : Nat) (h : seen.Nodup) : (see seen n).Nodup := by
  unfold see
  by_cases hn : n ∈ seen
  · rwa [if_pos hn]
  · rw [if_neg hn]
    exact List.nodup_append.mpr ⟨h, List.nodup_singleton n,
      fun a ha b hb => fun hab => hn (by rw [← List.mem_singleton.mp hb, ← hab]; exact ha)⟩

theorem nodup_foldl_see (ns : List Nat) : ∀ seen : List Nat, seen.Nodup →
    (ns.foldl see seen).Nodup := by
  induction ns with
  | nil => exact fun seen h => h
  | cons n ns ih => exact fun seen h => ih (see seen n) (nodup_see seen n h)

theorem mem_appearance (ns : List Nat) (n : Nat) : n ∈ appearance ns ↔ n ∈ ns := by
  rw [appearance, mem_foldl_see]
  simp

theorem nodup_appearance (ns : List Nat) : (appearance ns).Nodup :=
  nodup_foldl_see ns [] List.nodup_nil

section Numbers

variable (py : PyDigits)

/-- The numbers of the placeholders among the chunks, if every one of them
    converts. -/
def numbers : List Chunk → Option (List Nat)
  | [] => some []
  | .char _ :: cs => numbers cs
  | .run digits :: cs => do
    let n ← py.int digits
    let ns ← numbers cs
    return n :: ns

/-- The numbers are there exactly when every run converts. -/
theorem numbers_isSome_iff (cs : List Chunk) :
    (∃ ns, numbers py cs = some ns) ↔ ∀ digits, Chunk.run digits ∈ cs →
      ∃ n, py.int digits = some n := by
  induction cs with
  | nil => exact ⟨fun _ digits h => absurd h List.not_mem_nil, fun _ => ⟨[], rfl⟩⟩
  | cons c cs ih =>
    cases c with
    | char => simp [numbers, ih]
    | run digits =>
      simp only [numbers, Option.bind_eq_bind, Option.pure_def, Option.bind_eq_some_iff,
        Option.some.injEq, List.mem_cons, Chunk.run.injEq]
      constructor
      · rintro ⟨_, n, hn, rest, hrest, _⟩ ds (rfl | hds)
        · exact ⟨n, hn⟩
        · exact ih.mp ⟨rest, hrest⟩ ds hds
      · intro h
        rcases h digits (.inl rfl) with ⟨n, hn⟩
        rcases ih.mpr (fun ds hds => h ds (.inr hds)) with ⟨rest, hrest⟩
        exact ⟨_, n, hn, rest, hrest, rfl⟩

/-- What becomes of a chunk, once it is known in which order the numbers
    appear. -/
def Chunk.piece (start : Int) (seen : List Nat) : Chunk → Piece
  | .char c => { source := [c], output := [c] }
  | .run digits =>
    { source := '$' :: digits
      output := dollar (start + seen.idxOf ((py.int digits).getD 0) + 1) }

/-- The part of the loop that hands out numbers. -/
def numberChunks : List Chunk → Numbering → Option (List Piece × Numbering)
  | [], s => some ([], s)
  | .char c :: cs, s => do
    let (pieces, s') ← numberChunks cs s
    return ({ source := [c], output := [c] } :: pieces, s')
  | .run digits :: cs, s => do
    let n ← py.int digits
    let (pieces, s') ← numberChunks cs (s.number n).2
    return ({ source := '$' :: digits, output := dollar (s.number n).1 } :: pieces, s')

/-- The loop cuts the text, and hands out numbers to what it has cut. -/
theorem renumberLoop_eq (fuel : Nat) : ∀ (text : List Char) (s : Numbering), text.length ≤ fuel →
    renumberLoop py fuel text s = numberChunks py (chunks py.isdigit text) s := by
  induction fuel with
  | zero =>
    intro text s hle
    rw [List.length_eq_zero_iff.mp (Nat.le_zero.mp hle)]
    rfl
  | succ fuel ih =>
    intro text s hle
    cases text with
    | nil => rfl
    | cons c rest =>
      have hrest : rest.length ≤ fuel := Nat.le_of_succ_le_succ hle
      have hdrop := length_dropWhile_le py.isdigit rest
      by_cases hrun : c = '$' ∧ rest.head?.any py.isdigit = true
      · -- The loop goes on behind the digits, with more fuel than it needs.
        rcases hrun with ⟨rfl, hdigit⟩
        rw [renumberLoop, if_pos ⟨rfl, hdigit⟩, chunks_run hdigit, numberChunks]
        simp only [ih _ _ (Nat.le_trans hdrop hrest)]
      · rw [renumberLoop, if_neg hrun, chunks_char c rest hrun, numberChunks, ih rest s hrest]

/-- The dictionary after the numbers `seen` have been met in this order. -/
structure Numbered (start : Int) (seen : List Nat) (s : Numbering) : Prop where
  next : s.nextIdx = start + seen.length
  known : ∀ n ∈ seen, s.placeholders.lookup n = some (start + seen.idxOf n + 1)
  unknown : ∀ n, n ∉ seen → s.placeholders.lookup n = none

theorem numbered_start (start : Int) :
    Numbered start [] { nextIdx := start, placeholders := [] } where
  next := by simp
  known n hn := absurd hn List.not_mem_nil
  unknown n _ := rfl

/-- A number is handed out: the one it has, or the next one. -/
theorem number_cases {start : Int} {seen : List Nat} {s : Numbering} (h : Numbered start seen s)
    (n : Nat) :
    (s.number n).1 = start + (see seen n).idxOf n + 1 ∧
      Numbered start (see seen n) (s.number n).2 := by
  unfold Numbering.number see
  by_cases hn : n ∈ seen
  · rw [if_pos hn, h.known n hn]
    exact ⟨rfl, h⟩
  · rw [if_neg hn, h.unknown n hn]
    have hpos : (seen ++ [n]).idxOf n = seen.length := by
      rw [List.idxOf_append_of_notMem hn, List.idxOf_cons_self, Nat.add_zero]
    refine ⟨by rw [hpos, h.next], ⟨?_, fun m hm => ?_, fun m hm => ?_⟩⟩
    · simp only [h.next, List.length_append, List.length_singleton]
      omega
    · rcases List.mem_append.mp hm with hm | hm
      · -- An older number keeps its position, and the new entry is not in its way.
        have hne : (m == n) = false := beq_eq_false_iff_ne.mpr (fun heq => hn (heq ▸ hm))
        rw [List.lookup_cons, hne, List.idxOf_append_of_mem hm]
        exact h.known m hm
      · rw [List.mem_singleton.mp hm, List.lookup_cons, beq_self_eq_true, hpos, h.next]
    · rw [List.mem_append, List.mem_singleton, not_or] at hm
      have hne : (m == n) = false := beq_eq_false_iff_ne.mpr hm.2
      rw [List.lookup_cons, hne]
      exact h.unknown m hm.1

/-- Where every run converts, each chunk becomes its own piece. -/
theorem numberChunks_eq {start : Int} (cs : List Chunk) : ∀ (seen : List Nat) (s : Numbering),
    Numbered start seen s → ∀ ns, numbers py cs = some ns →
      ∃ s', numberChunks py cs s
          = some (cs.map (Chunk.piece py start (ns.foldl see seen)), s') ∧
        Numbered start (ns.foldl see seen) s' := by
  induction cs with
  | nil =>
    intro seen s h ns hns
    rw [← Option.some.inj hns]
    exact ⟨s, rfl, h⟩
  | cons c cs ih =>
    intro seen s h ns hns
    cases c with
    | char =>
      rcases ih seen s h ns hns with ⟨s', hs', hnum⟩
      exact ⟨s', by simp [numberChunks, hs', Chunk.piece], hnum⟩
    | run =>
      simp only [numbers, Option.bind_eq_bind, Option.pure_def, Option.bind_eq_some_iff,
        Option.some.injEq] at hns
      rcases hns with ⟨n, hn, rest, hrest, rfl⟩
      rcases number_cases h n with ⟨hfirst, hsecond⟩
      rcases ih (see seen n) (s.number n).2 hsecond rest hrest with ⟨s', hs', hnum⟩
      -- The numbers still to come do not move this one.
      have hstay := idxOf_foldl_see rest (see seen n) n ((mem_see seen n n).mpr (.inr rfl))
      refine ⟨s', ?_, hnum⟩
      simp [numberChunks, hn, hs', Chunk.piece, hstay, hfirst]

/-- Where some run does not convert, the loop raises. -/
theorem numberChunks_eq_none (cs : List Chunk) : ∀ s : Numbering, numbers py cs = none →
    numberChunks py cs s = none := by
  induction cs with
  | nil => exact fun s h => nomatch h
  | cons c cs ih =>
    intro s h
    cases c with
    | char => simp [numberChunks, ih s h]
    | run digits =>
      cases hn : py.int digits with
      | none => simp [numberChunks, hn]
      | some n =>
        simp only [numbers, hn, Option.bind_eq_bind, Option.bind_some, Option.pure_def,
          Option.bind_eq_none_iff, reduceCtorEq, imp_false] at h
        have hrest : numbers py cs = none := Option.eq_none_iff_forall_not_mem.mpr h
        simp [numberChunks, hn, ih (s.number n).2 hrest]

/-- The pieces the text is replaced by. -/
def pieces (text : List Char) (start : Int) (ns : List Nat) : List Piece :=
  (chunks py.isdigit text).map (Chunk.piece py start (appearance ns))

/-- Where every run converts, the loop gives the pieces of the whole text, and has
    used up as many numbers as there are different ones. -/
theorem renumberLoop_of_numbers {text : List Char} (start : Int) {ns : List Nat}
    (hns : numbers py (chunks py.isdigit text) = some ns) :
    ∃ s, renumberLoop py text.length text { nextIdx := start, placeholders := [] }
        = some (pieces py text start ns, s) ∧
      s.nextIdx = start + (appearance ns).length := by
  rw [renumberLoop_eq py _ _ _ (Nat.le_refl _)]
  rcases numberChunks_eq py _ [] _ (numbered_start start) ns hns with ⟨s, hs, hnum⟩
  exact ⟨s, hs, hnum.next⟩

/-- Where some run does not, it raises. -/
theorem renumberLoop_of_none (text : List Char) (s : Numbering)
    (hnone : numbers py (chunks py.isdigit text) = none) :
    renumberLoop py text.length text s = none := by
  rw [renumberLoop_eq py _ _ _ (Nat.le_refl _)]
  exact numberChunks_eq_none py _ s hnone

/-- `_renumber` in closed form: it raises if some run does not convert, and maps
    every chunk by itself if all do. -/
theorem renumber_eq (sql : String) (start : Int) :
    renumber py sql start = (numbers py (chunks py.isdigit sql.toList)).map fun ns =>
      (String.ofList ((pieces py sql.toList start ns).flatMap Piece.output),
        start + (appearance ns).length) := by
  unfold renumber
  cases hns : numbers py (chunks py.isdigit sql.toList) with
  | none => rw [renumberLoop_of_none py _ _ hns, Option.map_none, Option.map_none]
  | some ns =>
    rcases renumberLoop_of_numbers py start hns with ⟨s, hs, hnext⟩
    rw [hs, Option.map_some, Option.map_some, hnext]

end Numbers

end CoopDB
