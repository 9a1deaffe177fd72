import Mathlib.Data.Finset.Card

/-!
# A Cache That Gives Up What Was Least Recently Used

The entries are a list, the most recently used first. Getting an entry moves it
to the front, and adding one to a full cache drops the last.

An entry is dropped once as many other keys were used since as the cache holds,
and not before: the entries in front of it are other keys used since, each of
them once (`Ahead`).

## Main definitions

* `get`, `add`: The operations.

## Theorems

* `get_of_ahead`, `add_ahead`: An entry is found, and stays while there is room.
-/

namespace Lru

variable {κ ν : Type} [DecidableEq κ]

/-- The entries of the other keys. -/
def others (k : κ) (l : List (κ × ν)) : List (κ × ν) :=
  l.filter (fun e => e.1 ≠ k)

/-- The value of a key, and the cache with its entry in front. -/
def get (k : κ) (l : List (κ × ν)) : Option (ν × List (κ × ν)) :=
  (l.find? (fun e => e.1 = k)).map fun e => (e.2, (k, e.2) :: others k l)

/-- Put an entry in front, and give up the last one if there are too many. -/
def add (size : Nat) (k : κ) (v : ν) (l : List (κ × ν)) : List (κ × ν) :=
  ((k, v) :: others k l).take size

variable (size : Nat) (k : κ) (v : ν) (seen : Finset κ) (l : List (κ × ν))

theorem mem_others (e : κ × ν) : e ∈ others k l ↔ e ∈ l ∧ e.1 ≠ k := by
  simp [others]

/-- A key is found with its value, or there is no entry for it. -/
theorem get_cases : (∃ v, (k, v) ∈ l ∧ get k l = some (v, (k, v) :: others k l)) ∨
      ((∀ e ∈ l, e.1 ≠ k) ∧ get k l = none) := by
  unfold get
  cases hfind : l.find? (fun e => e.1 = k) with
  | none =>
    refine .inr ⟨fun e he hk => ?_, rfl⟩
    exact List.find?_eq_none.mp hfind e he (decide_eq_true hk)
  | some e =>
    have hfound := List.find?_some hfind
    have hkey : e.1 = k := of_decide_eq_true (p := e.1 = k) hfound
    exact .inl ⟨e.2, hkey ▸ List.mem_of_find?_eq_some hfind, rfl⟩

/-- Adding brings in no other entry. -/
theorem mem_of_mem_add (e : κ × ν) (he : e ∈ add size k v l) : e = (k, v) ∨ e ∈ l := by
  rcases List.mem_cons.mp (List.mem_of_mem_take he) with hnew | hold
  · exact .inl hnew
  · exact .inr ((mem_others k l e).mp hold).1

/-- The key has the value, and the entries in front of it are of different keys,
    all of them in the set. -/
def Ahead (k : κ) (v : ν) (seen : Finset κ) (l : List (κ × ν)) : Prop :=
  ∃ front back, l = front ++ (k, v) :: back ∧ (front.map Prod.fst).Nodup ∧
    ∀ e ∈ front, e.1 ∈ seen ∧ e.1 ≠ k

/-- There are no more entries in front than keys in the set. -/
theorem length_le_card {front : List (κ × ν)} {seen : Finset κ}
    (hnodup : (front.map Prod.fst).Nodup) (hseen : ∀ e ∈ front, e.1 ∈ seen) :
    front.length ≤ seen.card := by
  have hsub : (front.map Prod.fst).toFinset ⊆ seen := by
    intro k hk
    rcases List.mem_map.mp (List.mem_toFinset.mp hk) with ⟨e, he, rfl⟩
    exact hseen e he
  calc front.length
    _ = (front.map Prod.fst).length := (List.length_map _).symm
    _ = (front.map Prod.fst).toFinset.card := (List.toFinset_card_of_nodup hnodup).symm
    _ ≤ seen.card := Finset.card_le_card hsub

/-- An entry that is there is found. -/
theorem get_of_ahead (h : Ahead k v seen l) : get k l = some (v, (k, v) :: others k l) := by
  rcases h with ⟨front, back, rfl, _, hfront⟩
  have hfind : (front ++ (k, v) :: back).find? (fun e => e.1 = k) = some (k, v) := by
    rw [List.find?_append, List.find?_eq_none.mpr]
    · simp
    · intro e he
      simp only [decide_eq_true_eq]
      exact (hfront e he).2
  unfold get
  rw [hfind, Option.map_some]

omit [DecidableEq κ] in
/-- The entry that was just used is in front. -/
theorem ahead_self : Ahead k v ∅ ((k, v) :: l) :=
  ⟨[], l, rfl, List.nodup_nil, fun _ he => absurd he List.not_mem_nil⟩

theorem add_ahead_self (hsize : 0 < size) (k : κ) (v : ν) (l : List (κ × ν)) :
    Ahead k v ∅ (add size k v l) := by
  unfold add
  cases size with
  | zero => exact absurd hsize (Nat.lt_irrefl 0)
  | succ => exact ahead_self k v _

/-- Moving another key to the front puts it in front of the entry. -/
theorem ahead_others {j : κ} {v : ν} (w : ν) {seen : Finset κ} {l : List (κ × ν)} (hjk : j ≠ k)
    (h : Ahead k v seen l) : Ahead k v (insert j seen) ((j, w) :: others j l) := by
  rcases h with ⟨front, back, rfl, hnodup, hfront⟩
  refine ⟨(j, w) :: others j front, others j back, ?_, ?_, ?_⟩
  · simp [others, hjk.symm]
  · rw [List.map_cons, List.nodup_cons]
    constructor
    · intro hmem
      rcases List.mem_map.mp hmem with ⟨e, he, hej⟩
      exact (of_decide_eq_true (List.mem_filter.mp he).2) hej
    · exact hnodup.sublist (List.filter_sublist.map Prod.fst)
  · intro e he
    rcases List.mem_cons.mp he with rfl | hmem
    · exact ⟨Finset.mem_insert_self j seen, hjk⟩
    · have hold := hfront e (List.mem_filter.mp hmem).1
      exact ⟨Finset.mem_insert_of_mem hold.1, hold.2⟩

/-- Giving up the last entries leaves one with few in front of it. -/
theorem ahead_take (hcard : seen.card < size) (h : Ahead k v seen l) :
    Ahead k v seen (l.take size) := by
  rcases h with ⟨front, back, rfl, hnodup, hfront⟩
  have hlength := length_le_card hnodup (fun e he => (hfront e he).1)
  have hroom : 0 < size - front.length := Nat.sub_pos_of_lt (Nat.lt_of_le_of_lt hlength hcard)
  refine ⟨front, back.take (size - front.length - 1), ?_, hnodup, hfront⟩
  rw [List.take_append, List.take_of_length_le (Nat.le_trans hlength (Nat.le_of_lt hcard)),
    List.take_cons hroom]

/-- Using another key leaves an entry with few in front of it. -/
theorem add_ahead (j : κ) (v w : ν) (seen : Finset κ) (l : List (κ × ν)) (hjk : j ≠ k)
    (hcard : (insert j seen).card < size) (h : Ahead k v seen l) :
    Ahead k v (insert j seen) (add size j w l) :=
  ahead_take size k v (insert j seen) _ hcard (ahead_others k w hjk h)

end Lru
