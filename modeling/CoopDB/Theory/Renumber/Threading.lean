import CoopDB.Theory.Renumber.Binding

/-!
# Renumbered Placeholders Never Collide

`_renumber` on one text after the other, each call starting with the index the one
before returned.

A call numbers its placeholders in the order of their first appearance, from its start
on, so the new numbers are a range without gaps. The next call starts where the range
ends. That the ranges are apart is then a matter of their bounds.

## Main definitions

* `AsciiRuns`, `ShortRuns`: What is asked of the digits of a text.
* `RenumberCall`, `renumberEach`: The calls, one after the other, up to one that raises.

## Theorems

* `mem_renumberedBy`: The new numbers are a range.
* `renumbered_apart`: No index is in two outputs, each output uses exactly its range, and
  in a text the new numbers agree where the old ones do.
-/

namespace CoopDB

/-- One call of `_renumber` that returned: its arguments, the text and the index. -/
structure RenumberCall where
  sql : String
  start : Int
  output : String
  index : Int
  deriving DecidableEq, Repr

section

variable (py : PyDigits)

/-- Every run of digits behind a dollar sign is one of ASCII digits. -/
def AsciiRuns (sql : String) : Prop :=
  ∀ digits, Chunk.run digits ∈ chunks py.isdigit sql.toList → digits.all Char.isDigit = true

/-- No run has more digits than `int` converts. -/
def ShortRuns (sql : String) : Prop :=
  ∀ digits, Chunk.run digits ∈ chunks py.isdigit sql.toList →
    ¬ (py.maxStrDigits ≠ 0 ∧ py.maxStrDigits < digits.length)

/-- The calls of `_renumber` on the texts in turn, up to one that raises. -/
def renumberEach : Int → List String → List RenumberCall
  | _, [] => []
  | start, sql :: rest =>
    match renumber py sql start with
    | none => []
    | some (output, index) => ⟨sql, start, output, index⟩ :: renumberEach index rest

end

/-! ### One call -/

/-- The new numbers are the range behind the start, one for each different number. -/
theorem mem_renumberedBy (start : Nat) (ns : List Nat) (m : Nat) :
    m ∈ renumberedBy start ns ↔ start < m ∧ m ≤ start + (appearance ns).length := by
  rw [renumberedBy, List.mem_map]
  constructor
  · rintro ⟨n, hn, rfl⟩
    have hlt := List.idxOf_lt_length_of_mem ((mem_appearance ns n).mpr hn)
    omega
  · rintro ⟨hlow, hhigh⟩
    -- The number in that place of the appearances is the old one.
    have hlt : m - start - 1 < (appearance ns).length := by omega
    refine ⟨(appearance ns)[m - start - 1], (mem_appearance ns _).mp (List.getElem_mem hlt), ?_⟩
    rw [(nodup_appearance ns).idxOf_getElem _ hlt]
    omega

/-- Two placeholders have the same new number exactly if they had the same old one. -/
theorem renumberedBy_eq_iff (start : Nat) (ns : List Nat) (i j : Nat) (hi : i < ns.length)
    (hj : j < ns.length) :
    (renumberedBy start ns)[i]? = (renumberedBy start ns)[j]? ↔ ns[i]? = ns[j]? := by
  have hmem : ∀ k (hk : k < ns.length), ns[k] ∈ appearance ns :=
    fun k hk => (mem_appearance ns _).mpr (List.getElem_mem hk)
  simp only [renumberedBy, List.getElem?_map, List.getElem?_eq_getElem hi,
    List.getElem?_eq_getElem hj, Option.map_some, Option.some.injEq]
  rw [← List.idxOf_inj (hmem i hi)]
  omega

/-- What a call is for: its output uses the range from behind its start up to the
    index it returns, and has a placeholder for each of the text, with the same number
    where the text has the same. -/
structure RenumberCall.Renumbers (c : RenumberCall) : Prop where
  range : ∀ n : Nat, n ∈ occurrences c.output.toList ↔ c.start < n ∧ n ≤ c.index
  length : (occurrences c.output.toList).length = (occurrences c.sql.toList).length
  same : ∀ i j, i < (occurrences c.sql.toList).length → j < (occurrences c.sql.toList).length →
    ((occurrences c.output.toList)[i]? = (occurrences c.output.toList)[j]? ↔
      (occurrences c.sql.toList)[i]? = (occurrences c.sql.toList)[j]?)

section

variable (py : PyDigits)

/-- A call that can return does, and renumbers. -/
theorem renumbers_of_short {sql : String} (start : Nat) (hascii : AsciiRuns py sql)
    (hshort : ShortRuns py sql) :
    ∃ output, ∃ index : Nat, renumber py sql start = some (output, (index : Int)) ∧ start ≤ index ∧
      RenumberCall.Renumbers ⟨sql, start, output, index⟩ := by
  rcases occurrences_of_renumber py hascii hshort start with ⟨output, hcall, hoccur⟩
  have hnumbers : occurrences output.toList = renumberedBy start (occurrences sql.toList) := by
    have hend := hoccur [] rfl
    rw [List.append_nil] at hend
    exact hend.trans (List.append_nil _)
  refine ⟨output, _, hcall, Nat.le_add_right _ _, ⟨fun n => ?_, ?_, fun i j hi hj => ?_⟩⟩
  · rw [hnumbers, mem_renumberedBy]
    simp only []
    omega
  · rw [hnumbers, renumberedBy, List.length_map]
  · rw [hnumbers]
    exact renumberedBy_eq_iff start _ i j hi hj

/-! ### The calls in turn -/

/-- Every call renumbers and starts no earlier than the first, and a later one starts no
    earlier than an earlier one ended. -/
theorem renumberEach_apart (sqls : List String) : ∀ start : Nat,
    (∀ sql ∈ sqls, AsciiRuns py sql) →
      (∀ c ∈ renumberEach py start sqls, c.Renumbers ∧ (start : Int) ≤ c.start) ∧
        (renumberEach py start sqls).Pairwise (fun a b => a.index ≤ b.start) := by
  induction sqls with
  | nil => exact fun start _ => ⟨fun c hc => absurd hc List.not_mem_nil, List.Pairwise.nil⟩
  | cons sql sqls ih =>
    intro start hascii
    by_cases hshort : ShortRuns py sql
    · rcases renumbers_of_short py start (hascii sql List.mem_cons_self) hshort with
        ⟨output, index, hcall, hle, hrenumbers⟩
      rcases ih index (fun t ht => hascii t (List.mem_cons_of_mem sql ht)) with ⟨hcalls, happart⟩
      simp only [renumberEach, hcall]
      refine ⟨fun c hc => ?_, List.pairwise_cons.mpr ⟨fun c hc => (hcalls c hc).2, happart⟩⟩
      rcases List.mem_cons.mp hc with rfl | hmem
      · exact ⟨hrenumbers, Int.le_refl _⟩
      · rcases hcalls c hmem with ⟨hc', hstart⟩
        exact ⟨hc', Int.le_trans (Int.ofNat_le.mpr hle) hstart⟩
    · -- The call raises, and there is none after it.
      have hraise := renumber_of_long_run py (hascii sql List.mem_cons_self) hshort start
      simp only [renumberEach, hraise]
      exact ⟨fun c hc => absurd hc List.not_mem_nil, List.Pairwise.nil⟩

/-- The calls return up to the first text with a run that does not convert. -/
theorem renumberEach_sql (sqls : List String) : ∀ start : Nat,
    (∀ sql ∈ sqls, AsciiRuns py sql) →
      (renumberEach py start sqls).map RenumberCall.sql <+: sqls ∧
        ((renumberEach py start sqls).map RenumberCall.sql = sqls ↔
          ∀ sql ∈ sqls, ShortRuns py sql) := by
  induction sqls with
  | nil => exact fun start _ =>
    ⟨List.nil_prefix, iff_of_true rfl fun sql h => absurd h List.not_mem_nil⟩
  | cons sql sqls ih =>
    intro start hascii
    by_cases hshort : ShortRuns py sql
    · rcases renumbers_of_short py start (hascii sql List.mem_cons_self) hshort with
        ⟨output, index, hcall, _, _⟩
      rcases ih index (fun t ht => hascii t (List.mem_cons_of_mem sql ht)) with ⟨hpart, hall⟩
      simp only [renumberEach, hcall, List.map_cons, List.cons_prefix_cons, true_and,
        List.cons.injEq, List.forall_mem_cons]
      exact ⟨hpart, hall.trans ⟨fun h => ⟨hshort, h⟩, fun h => h.2⟩⟩
    · have hraise := renumber_of_long_run py (hascii sql List.mem_cons_self) hshort start
      simp only [renumberEach, hraise, List.map_nil]
      refine ⟨List.nil_prefix, iff_of_false (fun h => List.cons_ne_nil sql sqls h.symm) fun h => ?_⟩
      exact hshort (h sql List.mem_cons_self)

/-- Texts are renumbered in turn, from 0 on. A call returns unless some run before has
    more digits than `int` converts. No index is in two outputs; each output uses exactly
    the range from its start to the index it returned; and two placeholders of a text have
    the same new number exactly if they had the same old one. -/
theorem renumbered_apart (sqls : List String) (hascii : ∀ sql ∈ sqls, AsciiRuns py sql) :
    ((renumberEach py 0 sqls).map RenumberCall.sql <+: sqls ∧
      ((renumberEach py 0 sqls).map RenumberCall.sql = sqls ↔ ∀ sql ∈ sqls, ShortRuns py sql)) ∧
    (renumberEach py 0 sqls).Pairwise
      (fun a b => ∀ n ∈ occurrences a.output.toList, n ∉ occurrences b.output.toList) ∧
    ∀ c ∈ renumberEach py 0 sqls,
      (∀ n : Nat, n ∈ occurrences c.output.toList ↔ c.start < n ∧ n ≤ c.index) ∧
      (occurrences c.output.toList).length = (occurrences c.sql.toList).length ∧
      ∀ i j, i < (occurrences c.sql.toList).length → j < (occurrences c.sql.toList).length →
        ((occurrences c.output.toList)[i]? = (occurrences c.output.toList)[j]? ↔
          (occurrences c.sql.toList)[i]? = (occurrences c.sql.toList)[j]?) := by
  rcases renumberEach_apart py sqls 0 hascii with ⟨hcalls, happart⟩
  refine ⟨renumberEach_sql py sqls 0 hascii, ?_, fun c hc => ?_⟩
  · refine happart.imp_of_mem fun {a b} ha hb hab n hna hnb => ?_
    have hupper := ((hcalls a ha).1.range n).mp hna
    have hlower := ((hcalls b hb).1.range n).mp hnb
    omega
  · have hrenumbers := (hcalls c hc).1
    exact ⟨hrenumbers.range, hrenumbers.length, hrenumbers.same⟩

end

/-- A chunk is no run of other digits than those of ASCII. -/
def Chunk.isAscii : Chunk → Bool
  | .char _ => true
  | .run digits => digits.all Char.isDigit

/-- Two texts with repeated numbers, out of order. -/
theorem two_texts_apart :
    (renumberEach cpython311 0 ["SELECT $2, $1, $2", "UPDATE t SET v = $7"]).map
      RenumberCall.output =
        ["SELECT $1, $2, $1", "UPDATE t SET v = $3"] ∧
      (renumberEach cpython311 0 ["SELECT $2, $1, $2", "UPDATE t SET v = $7"]).Pairwise
        (fun a b => ∀ n ∈ occurrences a.output.toList, n ∉ occurrences b.output.toList) := by
  have hascii : ["SELECT $2, $1, $2", "UPDATE t SET v = $7"].all (fun sql =>
      (chunks cpython311.isdigit sql.toList).all Chunk.isAscii) = true := by decide
  rw [List.all_eq_true] at hascii
  refine ⟨by decide, (renumbered_apart cpython311 _ fun sql hsql digits hdigits => ?_).2.1⟩
  exact (List.all_eq_true.mp (hascii sql hsql)) (.run digits) hdigits

end CoopDB
