import Mathlib.Data.List.Infix

/-!
# Replacing Words by a Marker

A word is replaced by a marker wherever it occurs in a text, from the left and
without overlaps, and several words are replaced one after the other.

What a result shows may have two sources. It may have stood in the text, and have
been kept. Or a marker and what stands beside it spell it, which the text need not
have contained at all. To tell them apart, the same replacement is made on cells,
that is, on characters that know whether they were kept.

A later word may be found across a marker that an earlier one has left, and then a
part of the marker is replaced. The cells say what happens then as well, so nothing
has to be assumed of the words.

## Main definitions

* `replaceAll`, `replaceWords`: The text after one word, and after several.
* `Cell`, `markWords`: Characters with their source, and the replacement on them.
* `Shown`: Something occurs in a result as it was kept.
* `Spelled`: Something occurs in a result with a character of a marker in it.

## Theorems

* `infix_chars_iff`: What occurs in a result is shown or spelled.
* `chars_markWords`: The characters of the cells are the text after the replacement.
* `shown_of_shown_markWords`: What is shown stood in the text.
* `not_shown_markWords`: No word that was replaced is shown.
-/

namespace Replace

variable {α : Type}

/-- A character of a result, and whether it was kept or is of a marker. -/
structure Cell (α : Type) where
  char : α
  kept : Bool

/-- The characters. -/
def chars (cells : List (Cell α)) : List α :=
  cells.map Cell.char

/-- A text of which all is kept. -/
def keep (text : List α) : List (Cell α) :=
  text.map fun c => ⟨c, true⟩

/-- A marker. -/
def mark (marker : List α) : List (Cell α) :=
  marker.map fun c => ⟨c, false⟩

/-- The cells show something that was kept. -/
def Shown (e : List α) (cells : List (Cell α)) : Prop :=
  ∃ part, part <:+: cells ∧ (∀ c ∈ part, c.kept = true) ∧ chars part = e

/-- The cells spell something with a character of a marker. -/
def Spelled (e : List α) (cells : List (Cell α)) : Prop :=
  ∃ part, part <:+: cells ∧ (∃ c ∈ part, c.kept = false) ∧ chars part = e

@[simp] theorem chars_keep (text : List α) : chars (keep text) = text := by
  simp [chars, keep, Function.comp_def]

@[simp] theorem chars_append (first second : List (Cell α)) :
    chars (first ++ second) = chars first ++ chars second :=
  List.map_append

/-- What occurs in the text of some cells is shown or spelled. -/
theorem infix_chars_iff (e : List α) (cells : List (Cell α)) :
    e <:+: chars cells ↔ Shown e cells ∨ Spelled e cells := by
  constructor
  · intro h
    obtain ⟨part, hpart, rfl⟩ := List.infix_map_iff.mp h
    by_cases hkept : ∀ c ∈ part, c.kept = true
    · exact .inl ⟨part, hpart, hkept, rfl⟩
    · -- Some character was not kept, so it is of a marker.
      rw [not_forall] at hkept
      obtain ⟨c, hc⟩ := hkept
      rw [Classical.not_imp, Bool.not_eq_true] at hc
      exact .inr ⟨part, hpart, ⟨c, hc⟩, rfl⟩
  · rintro (⟨part, hpart, _, rfl⟩ | ⟨part, hpart, _, rfl⟩)
    · exact hpart.map Cell.char
    · exact hpart.map Cell.char

section

variable [DecidableEq α]

/-- The text with a word replaced, after some elements are skipped. -/
def replaceFrom (word marker : List α) : Nat → List α → List α
  | _, [] => []
  | skip + 1, _ :: text => replaceFrom word marker skip text
  | 0, c :: text =>
    if word <+: c :: text then marker ++ replaceFrom word marker (word.length - 1) text
    else c :: replaceFrom word marker 0 text

/-- The text with a word replaced by a marker. -/
def replaceAll (word marker text : List α) : List α :=
  replaceFrom word marker 0 text

/-- Words that are replaced one after the other, empty ones apart. -/
def replaceWords (marker : List α) (words : List (List α)) (text : List α) : List α :=
  words.foldl (fun text word => if word = [] then text else replaceAll word marker text) text

/-- Of a word of one element each occurrence is replaced. -/
theorem replaceAll_singleton (a : α) (marker text : List α) :
    replaceAll [a] marker text = text.flatMap fun c => if c = a then marker else [c] := by
  unfold replaceAll
  induction text with
  | nil => rfl
  | cons c text ih =>
    have hword : [a] <+: c :: text ↔ c = a := by
      rw [List.cons_prefix_cons]
      exact ⟨fun h => h.1.symm, fun h => ⟨h.symm, List.nil_prefix⟩⟩
    rw [replaceFrom, List.flatMap_cons]
    by_cases hc : c = a
    · rw [if_pos (hword.mpr hc), if_pos hc]
      exact congrArg (marker ++ ·) ih
    · rw [if_neg (fun h => hc (hword.mp h)), if_neg hc, ih, List.singleton_append]

/-- The same replacement on cells: a word is found by its characters, whatever their
    source. -/
def markFrom (word marker : List α) : Nat → List (Cell α) → List (Cell α)
  | _, [] => []
  | skip + 1, _ :: cells => markFrom word marker skip cells
  | 0, c :: cells =>
    if word <+: chars (c :: cells) then mark marker ++ markFrom word marker (word.length - 1) cells
    else c :: markFrom word marker 0 cells

/-- Several words on cells. -/
def markWords (marker : List α) (words : List (List α)) (cells : List (Cell α)) : List (Cell α) :=
  words.foldl (fun cells word => if word = [] then cells else markFrom word marker 0 cells) cells

/-! ### One word -/

variable (word marker : List α)

/-- The characters of the cells are the text with the word replaced. -/
theorem chars_markFrom (skip : Nat) (cells : List (Cell α)) :
    chars (markFrom word marker skip cells) = replaceFrom word marker skip (chars cells) := by
  induction cells generalizing skip with
  | nil => cases skip <;> rfl
  | cons c cells ih =>
    cases skip with
    | succ skip => exact ih skip
    | zero =>
      have hmark : chars (mark marker) = marker := by
        simp [chars, mark, Function.comp_def]
      by_cases hword : word <+: chars (c :: cells)
      · rw [markFrom, if_pos hword, chars_append, hmark, ih]
        exact (if_pos hword).symm
      · rw [markFrom, if_neg hword]
        exact (congrArg (c.char :: ·) (ih 0)).trans (if_neg hword).symm

/-- Kept characters at the front of a result stood at the front of the text. A marker
    must not be empty, or what it separates would be joined. -/
theorem prefix_of_kept (hmarker : marker ≠ []) (part : List (Cell α)) {cells : List (Cell α)}
    (hkept : ∀ c ∈ part, c.kept = true) (h : part <+: markFrom word marker 0 cells) :
    part <+: cells := by
  induction cells generalizing part with
  | nil => exact h
  | cons c cells ih =>
    cases part with
    | nil => exact List.nil_prefix
    | cons first part =>
      rw [List.forall_mem_cons] at hkept
      rw [markFrom] at h
      split at h
      case isTrue =>
          -- The first character would be the first of the marker.
          obtain ⟨m, marker, rfl⟩ := List.exists_cons_of_ne_nil hmarker
          rw [mark, List.map_cons, List.cons_append, List.cons_prefix_cons] at h
          rw [h.1] at hkept
          exact absurd hkept.1 Bool.false_ne_true
      case isFalse =>
          rw [List.cons_prefix_cons] at h
          rw [h.1]
          exact (List.prefix_cons_inj c).mpr (ih part hkept.2 h.2)

/-- Kept characters of a result stood in the text, and they are not the word. -/
theorem infix_of_kept (hmarker : marker ≠ []) (skip : Nat) {part cells : List (Cell α)}
    (hne : part ≠ []) (hkept : ∀ c ∈ part, c.kept = true)
    (h : part <:+: markFrom word marker skip cells) : part <:+: cells ∧ ¬word = chars part := by
  induction cells generalizing skip with
  | nil =>
    have hnil : part <:+: [] := by
      cases skip <;> exact h
    exact absurd (List.infix_nil.mp hnil) hne
  | cons c cells ih =>
    have hbehind : ∀ skip, part <:+: markFrom word marker skip cells →
        part <:+: c :: cells ∧ ¬word = chars part := fun skip hin =>
      ⟨(ih skip hin).1.trans (List.suffix_cons c cells).isInfix, (ih skip hin).2⟩
    cases skip with
    | succ skip => exact hbehind skip h
    | zero =>
      rw [markFrom] at h
      split at h
      case isTrue =>
          -- What is kept and not empty has no character of the marker.
          rcases List.infix_append_iff.mp h with hin | hin | ⟨front, back, rfl, hfront, hback⟩
          · obtain ⟨first, part, rfl⟩ := List.exists_cons_of_ne_nil hne
            have hmem := hin.mem List.mem_cons_self
            obtain ⟨m, _, hm⟩ := List.mem_map.mp hmem
            have hfirst := hkept first List.mem_cons_self
            rw [← hm] at hfirst
            exact absurd hfirst Bool.false_ne_true
          · exact hbehind _ hin
          · have hnil : front = [] := by
              by_contra hfrontne
              obtain ⟨first, front, rfl⟩ := List.exists_cons_of_ne_nil hfrontne
              obtain ⟨m, _, hm⟩ := List.mem_map.mp (hfront.mem List.mem_cons_self)
              have hfirst := hkept first List.mem_cons_self
              rw [← hm] at hfirst
              exact Bool.false_ne_true hfirst
            rw [hnil, List.nil_append] at hbehind ⊢
            exact hbehind _ hback.isInfix
      case isFalse hnot =>
          rcases List.infix_cons_iff.mp h with hfront | hin
          · -- At the front it stood at the front, where the word was not found.
            have hstood : part <+: c :: cells := by
              refine prefix_of_kept word marker hmarker part hkept ?_
              rw [markFrom, if_neg hnot]
              exact hfront
            refine ⟨hstood.isInfix, fun hword => hnot ?_⟩
            rw [hword]
            exact hstood.map Cell.char
          · exact hbehind 0 hin

/-! ### Several words -/

theorem markWords_cons (word : List α) (words : List (List α)) (cells : List (Cell α)) :
    markWords marker (word :: words) cells =
      markWords marker words (if word = [] then cells else markFrom word marker 0 cells) :=
  rfl

/-- The characters of the cells are the text with the words replaced. -/
theorem chars_markWords (words : List (List α)) (cells : List (Cell α)) :
    chars (markWords marker words cells) = replaceWords marker words (chars cells) := by
  induction words generalizing cells with
  | nil => rfl
  | cons word words ih =>
    rw [markWords_cons, ih, replaceWords, replaceWords, List.foldl_cons]
    by_cases hword : word = []
    · rw [if_pos hword, if_pos hword]
    · rw [if_neg hword, if_neg hword, chars_markFrom]
      rfl

/-- What is shown after the replacement was shown before. -/
theorem shown_of_shown_markWords (hmarker : marker ≠ []) {words : List (List α)}
    (cells : List (Cell α)) {e : List α} (hne : e ≠ [])
    (h : Shown e (markWords marker words cells)) :
    Shown e cells := by
  induction words generalizing cells with
  | nil => exact h
  | cons word words ih =>
    rw [markWords_cons] at h
    have hrest := ih _ h
    by_cases hword : word = []
    · rw [if_pos hword] at hrest
      exact hrest
    · rw [if_neg hword] at hrest
      obtain ⟨part, hpart, hkept, rfl⟩ := hrest
      have hpartne : part ≠ [] := fun hnil => hne (congrArg chars hnil)
      exact ⟨part, (infix_of_kept word marker hmarker 0 hpartne hkept hpart).1, hkept, rfl⟩

/-- None of the words is shown. -/
theorem not_shown_markWords (hmarker : marker ≠ []) {words : List (List α)} (cells : List (Cell α))
    {word : List α} (hne : word ≠ []) (hmem : word ∈ words) :
    ¬Shown word (markWords marker words cells) := by
  induction words generalizing cells with
  | nil => exact absurd hmem List.not_mem_nil
  | cons first words ih =>
    rw [markWords_cons]
    by_cases hfirst : word = first
    · -- It was replaced, and what the later words leave was there before.
      intro h
      have hbefore := shown_of_shown_markWords marker hmarker _ hne h
      rw [if_neg (hfirst ▸ hne)] at hbefore
      obtain ⟨part, hpart, hkept, hchars⟩ := hbefore
      have hpartne : part ≠ [] := fun hnil => hne (hchars.symm.trans (congrArg chars hnil))
      exact (infix_of_kept first marker hmarker 0 hpartne hkept hpart).2 (hfirst ▸ hchars.symm)
    · exact ih _ ((List.mem_cons.mp hmem).resolve_left hfirst)

end

end Replace
