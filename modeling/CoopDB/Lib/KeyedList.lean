import Mathlib.Data.List.Pairwise
import Mathlib.Data.List.Perm.Basic
import Mathlib.Order.Lattice

/-!
# A Table Kept as a List in Key Order

A small table whose rows are kept as a list, ordered by a key that grows with
every insert. Rows are deleted and updated by key.

The one invariant is that the keys are strictly increasing. It makes a deletion
by key take out exactly one row, which is what an account of the rows needs,
and it makes the list order the order of insertion.

## Main definitions

* `remove`, `modify`: Deletion and update by key.

## Theorems

* `hasKey_remove`, `hasKey_modify`, `hasKey_append`: The keys after a change.
* `ordered_remove`, `ordered_modify`, `ordered_append`: The invariant is kept.
-/

namespace KeyedList

variable {α κ : Type} [LinearOrder κ] (key : α → κ)

/-- Delete the rows with the key. -/
def remove (l : List α) (k : κ) : List α :=
  l.filter (fun a => key a ≠ k)

/-- Update the rows with the key. -/
def modify (l : List α) (k : κ) (f : α → α) : List α :=
  l.map (fun a => if key a = k then f a else a)

variable (l : List α) (k : κ)

theorem mem_remove (a : α) : a ∈ remove key l k ↔ a ∈ l ∧ key a ≠ k := by
  simp [remove]

theorem mem_modify (f : α → α) (b : α) :
    b ∈ modify key l k f ↔ ∃ a ∈ l, b = if key a = k then f a else a := by
  simp [modify, eq_comm]

/-- A row has the key. -/
def HasKey (l : List α) (k : κ) : Prop :=
  ∃ a ∈ l, key a = k

theorem hasKey_remove (k' : κ) : HasKey key (remove key l k) k' ↔ HasKey key l k' ∧ k' ≠ k := by
  constructor
  · rintro ⟨a, ha, rfl⟩
    rcases (mem_remove key l k a).mp ha with ⟨hmem, hne⟩
    exact ⟨⟨a, hmem, rfl⟩, hne⟩
  · rintro ⟨⟨a, ha, rfl⟩, hne⟩
    exact ⟨a, (mem_remove key l k a).mpr ⟨ha, hne⟩, rfl⟩

/-- An update that leaves the keys alone leaves the same keys. -/
theorem hasKey_modify (k' : κ) (f : α → α) (hf : ∀ a, key (f a) = key a) :
    HasKey key (modify key l k f) k' ↔ HasKey key l k' := by
  have hkey : ∀ a, key (if key a = k then f a else a) = key a := by
    intro a
    by_cases ha : key a = k
    · rw [if_pos ha, hf]
    · rw [if_neg ha]
  constructor
  · rintro ⟨b, hb, rfl⟩
    rcases (mem_modify key l k f b).mp hb with ⟨a, ha, rfl⟩
    exact ⟨a, ha, (hkey a).symm⟩
  · rintro ⟨a, ha, rfl⟩
    exact ⟨_, (mem_modify key l k f _).mpr ⟨a, ha, rfl⟩, hkey a⟩

omit [LinearOrder κ] in
theorem hasKey_append (b : α) (k : κ) : HasKey key (l ++ [b]) k ↔ HasKey key l k ∨ key b = k := by
  simp [HasKey, or_and_right, exists_or]

/-- The keys are strictly increasing along the list. -/
def Ordered (l : List α) : Prop :=
  l.Pairwise (fun a b => key a < key b)

theorem ordered_remove (h : Ordered key l) (k : κ) : Ordered key (remove key l k) :=
  h.filter _

/-- An update that leaves the keys alone keeps the order. -/
theorem ordered_modify (h : Ordered key l) (k : κ) (f : α → α) (hf : ∀ a, key (f a) = key a) :
    Ordered key (modify key l k f) := by
  have hkey : ∀ a, key (if key a = k then f a else a) = key a := by
    intro a
    split
    · exact hf a
    · rfl
  refine List.pairwise_map.mpr (List.Pairwise.imp (fun {a b} hab => ?_) h)
  rw [hkey a, hkey b]
  exact hab

/-- A new row with a larger key goes to the end. -/
theorem ordered_append (h : Ordered key l) (b : α) (hb : ∀ a ∈ l, key a < key b) :
    Ordered key (l ++ [b]) := by
  refine List.pairwise_append.mpr ⟨h, List.pairwise_singleton _ b, fun a ha c hc => ?_⟩
  rw [List.mem_singleton.mp hc]
  exact hb a ha

/-- Deleting the first row leaves the rest. -/
theorem remove_head (a : α) (l : List α) (h : Ordered key (a :: l)) :
    remove key (a :: l) (key a) = l := by
  have hrest : ∀ b ∈ l, decide (key b ≠ key a) = true := by
    intro b hb
    exact decide_eq_true (ne_of_gt ((List.pairwise_cons.mp h).1 b hb))
  unfold remove
  rw [List.filter_cons_of_neg (by simp)]
  exact List.filter_eq_self.mpr hrest

/-- A deletion by key takes out exactly the one row with the key. -/
theorem perm_remove (h : Ordered key l) {a : α} (ha : a ∈ l) :
    l.Perm (a :: remove key l (key a)) := by
  induction l with
  | nil => exact absurd ha List.not_mem_nil
  | cons c l ih =>
    rcases List.pairwise_cons.mp h with ⟨hhead, htail⟩
    rcases List.mem_cons.mp ha with rfl | ha
    · rw [remove_head key a l h]
    · -- The first row has a smaller key and stays where it is.
      have hkeep : remove key (c :: l) (key a) = c :: remove key l (key a) :=
        List.filter_cons_of_pos (decide_eq_true (ne_of_lt (hhead a ha)))
      rw [hkeep]
      exact ((ih htail ha).cons c).trans (List.Perm.swap a c _)

/-- There is one row for a key. -/
theorem eq_of_key_eq (h : Ordered key l) {a b : α} (ha : a ∈ l) (hb : b ∈ l)
    (hkey : key b = key a) :
    b = a := by
  rcases List.mem_cons.mp ((perm_remove key l h ha).subset hb) with heq | hrest
  · exact heq
  · exact absurd hkey ((mem_remove key l _ b).mp hrest).2

/-- When the first row of a selection is deleted, the rest of the selection is
    still there. -/
theorem sublist_remove_head (h : Ordered key l) {b : α} {bs : List α} (hsub : (b :: bs).Sublist l) :
    bs.Sublist (remove key l (key b)) := by
  have hbs : Ordered key (b :: bs) := h.sublist hsub
  have hfilter := hsub.filter (fun a => decide (key a ≠ key b))
  rw [show (b :: bs).filter (fun a => decide (key a ≠ key b)) = bs from remove_head key b bs hbs]
    at hfilter
  exact hfilter

/-- The rows with smaller keys than one of the first `n` are among the first
    `n`. -/
theorem mem_take_of_lt (h : Ordered key l) {n : Nat} {a b : α} (ha : a ∈ l) (hb : b ∈ l.take n)
    (hlt : key a < key b) : a ∈ l.take n := by
  rw [← List.take_append_drop n l] at ha
  rcases List.mem_append.mp ha with ha | ha
  · exact ha
  · -- Further back its key would be larger.
    rw [Ordered, ← List.take_append_drop n l] at h
    have hlater := (List.pairwise_append.mp h).2.2 b hb a ha
    exact absurd hlt (lt_asymm hlater)

end KeyedList
