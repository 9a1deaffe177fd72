import CoopDB.Core.VectorIndex
import Mathlib.Data.List.Induction

/-!
# One Index for Each Column

What is there of an index is decided by its name. The name is put together from
the table and the column with the character that both may contain, so two pairs
can have one name, and it is cut off at 63 bytes, so two long ones can as well.
The second pair then gets no index, or an error.

## Main definitions

* `IndexCall.Undisturbed`: A call on safe identifiers, with rows enough, whose queries
  are answered.
* `IndexedOnce`: Every call does what it is for.
* `ToldApart`: The names tell the pairs apart.

## Theorems

* `ensure_free`, `ensure_taken`, `ensure_found`: A call whose name is free creates its
  index, and one whose name is taken does not.
* `relations_of_toldApart`: The relations after some calls, if the names do tell.
* `indexed_once_iff`: Every call does what it is for exactly if they do.
* `two_pairs_one_name`: Two pairs that have one name.
-/

namespace CoopDB

/-- A call on safe identifiers, with rows enough, whose queries are answered. -/
def IndexCall.Undisturbed (c : IndexCall) : Prop :=
  isSafeIdent c.table = true ∧ isSafeIdent c.column = true ∧ c.existsError = none ∧
    ∃ n, c.count = .ok n ∧ c.minRows ≤ n

/-- The name of the index of a call, as it is stored. -/
def IndexCall.stored (c : IndexCall) : String :=
  truncateName (indexName c.table c.column)

/-- There is an index on that very table and column. -/
def IndexedIn (relations : List Relation) (c : IndexCall) : Prop :=
  ∃ r ∈ relations, ∃ lists, r.kind = .ivfflat c.table c.column lists

/-- Every call returns without error, returns true exactly the first time for its
    pair, and has an index on it afterwards. -/
def IndexedOnce (readName : String → String) (start : List Relation) (calls : List IndexCall) :
    Prop :=
  ∀ before c after, calls = before ++ c :: after →
    (ensureIVFFlatIndex readName (ensureAll readName start before) c).1 =
        .ok (decide (c.pair ∉ before.map IndexCall.pair)) ∧
      IndexedIn (ensureIVFFlatIndex readName (ensureAll readName start before) c).2 c

/-- The names tell the pairs that are called apart: from one another, from what is
    there at the start, and from themselves when they are looked for again. -/
structure ToldApart (readName : String → String) (start : List Relation)
    (calls : List IndexCall) : Prop where
  free : ∀ c ∈ calls, ∀ r ∈ start, r.name ≠ c.stored
  apart : ∀ c ∈ calls, ∀ d ∈ calls, c.stored = d.stored → c.pair = d.pair
  again : ∀ before c after, calls = before ++ c :: after → c.pair ∈ before.map IndexCall.pair →
    readName (indexName c.table c.column) = c.stored

section

variable (readName : String → String)

/-! ### One call -/

theorem stored_of_pair (c d : IndexCall) (h : c.pair = d.pair) : c.stored = d.stored := by
  rw [IndexCall.stored, IndexCall.stored, (Prod.mk.inj h).1, (Prod.mk.inj h).2]

/-- A call that is not disturbed, by the two questions it asks. -/
theorem ensure_eq (relations : List Relation) {c : IndexCall} (hc : IndexCall.Undisturbed c) :
    ∃ lists, ensureIVFFlatIndex readName relations c =
      if relations.any (fun r => r.kind.isIndex && r.name == readName (indexName c.table c.column))
      then (.ok false, relations)
      else createIndex (indexName c.table c.column) c.table c.column lists relations := by
  obtain ⟨htable, hcolumn, hexists, n, hcount, hrows⟩ := hc
  refine ⟨listsFor c.lists n, ?_⟩
  unfold ensureIVFFlatIndex
  rw [htable, hcolumn, hexists, hcount, if_neg (by decide)]
  simp only [if_neg (Int.not_lt.mpr hrows)]

theorem mem_createIndex (name table column : String) (lists : Int) {relations : List Relation}
    {r : Relation} (hr : r ∈ relations) :
    r ∈ (createIndex name table column lists relations).2 := by
  unfold createIndex
  split
  · exact hr
  · exact List.mem_append_left _ hr

/-- Relations stay. -/
theorem mem_ensure (relations : List Relation) (c : IndexCall) (r : Relation)
    (hr : r ∈ relations) : r ∈ (ensureIVFFlatIndex readName relations c).2 := by
  unfold ensureIVFFlatIndex
  split
  · exact hr
  · split
    · exact hr
    · split
      · exact hr
      · split
        · exact hr
        · split
          · exact hr
          · exact mem_createIndex _ _ _ _ hr

theorem mem_ensureAll (relations : List Relation) (calls : List IndexCall) (r : Relation)
    (hr : r ∈ relations) : r ∈ ensureAll readName relations calls := by
  induction calls generalizing relations with
  | nil => exact hr
  | cons c calls ih => exact ih _ (mem_ensure readName relations c r hr)

theorem ensureAll_cons (relations : List Relation) (c : IndexCall) (calls : List IndexCall) :
    ensureAll readName relations (c :: calls) =
      ensureAll readName (ensureIVFFlatIndex readName relations c).2 calls :=
  rfl

theorem ensureAll_append (relations : List Relation) (a b : List IndexCall) :
    ensureAll readName relations (a ++ b) = ensureAll readName (ensureAll readName relations a) b :=
  List.foldl_append

variable (hread : ∀ name, readName name = name ∨ readName name = truncateName name)

include hread in
/-- What is found under the name that is looked for has the name that is stored. -/
theorem name_of_found (r : Relation) (c : IndexCall)
    (h : r.name = readName (indexName c.table c.column)) :
    r.name = c.stored ∧ readName (indexName c.table c.column) = c.stored := by
  rcases hread (indexName c.table c.column) with hname | hname
  · -- It is compared as it is, so it is not longer than a name can be.
    have hshort : truncateName (indexName c.table c.column) = indexName c.table c.column := by
      have hlength := r.length_name
      rw [h, hname] at hlength
      rw [truncateName, List.take_of_length_le hlength, String.ofList_toList]
    rw [IndexCall.stored, hshort, h, hname]
    exact ⟨rfl, rfl⟩
  · exact ⟨h.trans hname, hname⟩

include hread in
/-- A call whose name is free creates its index. -/
theorem ensure_free {relations : List Relation} {c : IndexCall} (hc : IndexCall.Undisturbed c)
    (hfree : ∀ r ∈ relations, r.name ≠ c.stored) :
    ∃ lists, ensureIVFFlatIndex readName relations c =
      (.ok true, relations ++ [newIndex (indexName c.table c.column) c.table c.column lists]) := by
  obtain ⟨lists, heq⟩ := ensure_eq readName relations hc
  refine ⟨lists, ?_⟩
  rw [heq, if_neg, createIndex, if_neg]
  · intro htaken
    obtain ⟨r, hr, hname⟩ := List.any_eq_true.mp htaken
    exact hfree r hr (eq_of_beq hname)
  · intro hfound
    obtain ⟨r, hr, hname⟩ := List.any_eq_true.mp hfound
    rw [Bool.and_eq_true] at hname
    exact hfree r hr (name_of_found readName hread r c (eq_of_beq hname.2)).1

/-- A call whose name is taken creates nothing. -/
theorem ensure_taken (relations : List Relation) (c : IndexCall) (hc : IndexCall.Undisturbed c)
    (r : Relation) (hr : r ∈ relations) (hname : r.name = c.stored) :
    (ensureIVFFlatIndex readName relations c).1 ≠ .ok true := by
  obtain ⟨lists, heq⟩ := ensure_eq readName relations hc
  rw [heq]
  split
  · exact fun h => absurd (Except.ok.inj h) Bool.false_ne_true
  · have htaken : relations.any (·.name == truncateName (indexName c.table c.column)) = true :=
      List.any_eq_true.mpr ⟨r, hr, beq_iff_eq.mpr hname⟩
    rw [createIndex, if_pos htaken]
    exact fun h => nomatch h

/-- A call that finds its index does nothing. -/
theorem ensure_found {relations : List Relation} {c : IndexCall} (hc : IndexCall.Undisturbed c)
    {r : Relation} (hr : r ∈ relations) (hindex : r.kind.isIndex = true)
    (hname : r.name = readName (indexName c.table c.column)) :
    ensureIVFFlatIndex readName relations c = (.ok false, relations) := by
  obtain ⟨lists, heq⟩ := ensure_eq readName relations hc
  rw [heq, if_pos]
  refine List.any_eq_true.mpr ⟨r, hr, ?_⟩
  rw [hindex, Bool.true_and]
  exact beq_iff_eq.mpr hname

/-- A call that returns false without an error has found a relation under the name
    it looks for. -/
theorem found_of_false (relations : List Relation) (c : IndexCall) (hc : IndexCall.Undisturbed c)
    (h : (ensureIVFFlatIndex readName relations c).1 = .ok false) :
    ∃ r ∈ relations, r.name = readName (indexName c.table c.column) := by
  obtain ⟨lists, heq⟩ := ensure_eq readName relations hc
  rw [heq] at h
  split at h
  · rename_i hfound
    obtain ⟨r, hr, hname⟩ := List.any_eq_true.mp hfound
    rw [Bool.and_eq_true] at hname
    exact ⟨r, hr, eq_of_beq hname.2⟩
  · unfold createIndex at h
    split at h
    · cases h
    · exact absurd (Except.ok.inj h).symm Bool.false_ne_true

/-! ### Calls one after the other -/

/-- The first call for the pair of a call. -/
theorem first_call {calls : List IndexCall} {c : IndexCall} (hc : c ∈ calls) :
    ∃ before d after, calls = before ++ d :: after ∧ d.pair = c.pair ∧
      d.pair ∉ before.map IndexCall.pair := by
  induction calls with
  | nil => exact absurd hc List.not_mem_nil
  | cons e calls ih =>
    by_cases hpair : e.pair = c.pair
    · exact ⟨[], e, calls, rfl, hpair, List.not_mem_nil⟩
    · have hrest : c ∈ calls := by
        rcases List.mem_cons.mp hc with rfl | hrest
        · exact absurd rfl hpair
        · exact hrest
      obtain ⟨before, d, after, rfl, hd, hfirst⟩ := ih hrest
      refine ⟨e :: before, d, after, rfl, hd, ?_⟩
      rw [List.map_cons, List.mem_cons, not_or]
      exact ⟨fun h => hpair (h.symm.trans hd), hfirst⟩

section

variable {readName} {start : List Relation} {calls : List IndexCall}
  (hcalls : ∀ c ∈ calls, IndexCall.Undisturbed c)

include hcalls in
/-- If all goes well, the name of a pair is free at its first call. -/
theorem free_of_first (h : IndexedOnce readName start calls) {before after : List IndexCall}
    {c : IndexCall} (heq : calls = before ++ c :: after)
    (hfirst : c.pair ∉ before.map IndexCall.pair) :
    ∀ r ∈ ensureAll readName start before, r.name ≠ c.stored := by
  intro r hr hname
  have hc : IndexCall.Undisturbed c := hcalls c (heq ▸ List.mem_append_right _ List.mem_cons_self)
  refine ensure_taken readName _ c hc r hr hname ((h before c after heq).1.trans ?_)
  rw [decide_eq_true hfirst]

include hread hcalls in
/-- If all goes well, the first calls of two pairs have two names. -/
theorem stored_ne_of_first (h : IndexedOnce readName start calls)
    {before mid after : List IndexCall} {c d : IndexCall}
    (heq : calls = before ++ c :: (mid ++ d :: after))
    (hfirst : c.pair ∉ before.map IndexCall.pair)
    (hfirst' : d.pair ∉ (before ++ c :: mid).map IndexCall.pair) : c.stored ≠ d.stored := by
  intro hsame
  have hc : IndexCall.Undisturbed c := hcalls c (heq ▸ List.mem_append_right _ List.mem_cons_self)
  have hfree := free_of_first hcalls h heq hfirst
  obtain ⟨lists, hcreated⟩ := ensure_free readName hread hc hfree
  -- What was created at the first call is still there at the second.
  refine free_of_first hcalls h
    (by rw [heq, List.append_assoc, List.cons_append]) hfirst'
    (newIndex (indexName c.table c.column) c.table c.column lists) ?_ hsame
  rw [ensureAll_append, ensureAll_cons, hcreated]
  refine mem_ensureAll readName _ mid _ ?_
  exact List.mem_append_right _ List.mem_cons_self

include hread hcalls in
/-- If all goes well, the names tell the pairs apart. -/
theorem toldApart_of_indexedOnce (h : IndexedOnce readName start calls) :
    ToldApart readName start calls where
  free := by
    intro c hc r hr hname
    obtain ⟨before, d, after, heq, hpair, hfirst⟩ := first_call hc
    refine free_of_first hcalls h heq hfirst r (mem_ensureAll readName start before r hr) ?_
    rw [hname, stored_of_pair d c hpair]
  apart := by
    intro c hc d hd hsame
    by_contra hne
    obtain ⟨before, c', after, heq, hc', hfirst⟩ := first_call hc
    obtain ⟨before', d', after', heq', hd', hfirst'⟩ := first_call hd
    have hstored : c'.stored = d'.stored := by
      rw [stored_of_pair c' c hc', stored_of_pair d' d hd', hsame]
    have hpairs : c'.pair ≠ d'.pair := by
      rw [hc', hd']
      exact hne
    -- One of the two first calls comes before the other.
    rcases List.append_eq_append_iff.mp (heq.symm.trans heq') with ⟨mid, hbefore, hmid⟩ |
      ⟨mid, hbefore, hmid⟩
    · cases mid with
      | nil => exact hpairs (congrArg IndexCall.pair (List.cons.inj hmid).1)
      | cons e mid =>
        rw [List.cons_append] at hmid
        obtain ⟨rfl, hafter⟩ := List.cons.inj hmid
        exact stored_ne_of_first hread hcalls h (hafter ▸ heq) hfirst (hbefore ▸ hfirst') hstored
    · cases mid with
      | nil => exact hpairs (congrArg IndexCall.pair (List.cons.inj hmid).1).symm
      | cons e mid =>
        rw [List.cons_append] at hmid
        obtain ⟨rfl, hafter⟩ := List.cons.inj hmid
        exact stored_ne_of_first hread hcalls h
          (hafter ▸ heq') hfirst' (hbefore ▸ hfirst) hstored.symm
  again := by
    intro before c after heq hpair
    have hc : IndexCall.Undisturbed c := hcalls c (heq ▸ List.mem_append_right _ List.mem_cons_self)
    have hfalse : decide (c.pair ∉ before.map IndexCall.pair) = false :=
      decide_eq_false (not_not_intro hpair)
    obtain ⟨r, _, hname⟩ := found_of_false readName _ c hc
      ((h before c after heq).1.trans (congrArg Except.ok hfalse))
    exact (name_of_found readName hread r c hname).2

include hread hcalls in
/-- One call, if the names tell the pairs apart and the relations are those of the
    start and of the calls before. -/
theorem ensure_of_toldApart (h : ToldApart readName start calls) (before after : List IndexCall)
    (c : IndexCall) (heq : calls = before ++ c :: after) (relations : List Relation)
    (hfrom : ∀ r ∈ relations, r ∈ start ∨ ∃ d ∈ before, r.name = d.stored)
    (hindexed : ∀ d ∈ before, ∃ r ∈ relations, r.name = d.stored ∧
      ∃ lists, r.kind = .ivfflat d.table d.column lists) :
    (c.pair ∈ before.map IndexCall.pair ∧
        ensureIVFFlatIndex readName relations c = (.ok false, relations)) ∨
      (c.pair ∉ before.map IndexCall.pair ∧ ∃ lists, ensureIVFFlatIndex readName relations c =
        (.ok true,
          relations ++ [newIndex (indexName c.table c.column) c.table c.column lists])) := by
  have hmem : c ∈ calls := heq ▸ List.mem_append_right _ List.mem_cons_self
  by_cases hpair : c.pair ∈ before.map IndexCall.pair
  · obtain ⟨d, hd, hsame⟩ := List.mem_map.mp hpair
    obtain ⟨r, hr, hname, lists, hkind⟩ := hindexed d hd
    refine .inl ⟨hpair, ensure_found readName (hcalls c hmem) hr ?_ ?_⟩
    · rw [hkind]
      rfl
    · rw [hname, stored_of_pair d c hsame, h.again before c after heq hpair]
  · refine .inr ⟨hpair, ensure_free readName hread (hcalls c hmem) fun r hr hname => ?_⟩
    rcases hfrom r hr with hstart | ⟨d, hd, hd'⟩
    · exact h.free c hmem r hstart hname
    · have hdmem : d ∈ calls := heq ▸ List.mem_append_left _ hd
      exact hpair (List.mem_map.mpr ⟨d, hd, h.apart d hdmem c hmem (hd'.symm.trans hname)⟩)

include hread hcalls in
/-- If the names tell the pairs apart, the relations after some calls are those of the
    start and one index for each pair. -/
theorem relations_of_toldApart (h : ToldApart readName start calls)
    (before after : List IndexCall) (heq : calls = before ++ after) :
    (∀ r ∈ ensureAll readName start before, r ∈ start ∨ ∃ d ∈ before, r.name = d.stored) ∧
      ∀ d ∈ before, ∃ r ∈ ensureAll readName start before, r.name = d.stored ∧
        ∃ lists, r.kind = .ivfflat d.table d.column lists := by
  induction before using List.reverseRecOn generalizing after with
  | nil => exact ⟨fun r hr => .inl hr, fun d hd => absurd hd List.not_mem_nil⟩
  | append_singleton before c ih =>
    rw [List.append_assoc, List.singleton_append] at heq
    obtain ⟨hfrom, hindexed⟩ := ih (c :: after) heq
    have hcall := ensure_of_toldApart hread hcalls h before after c heq _ hfrom hindexed
    rw [ensureAll_append, ensureAll_cons]
    rcases hcall with ⟨hpair, hensure⟩ | ⟨_, lists, hensure⟩
    · rw [hensure]
      refine ⟨fun r hr => (hfrom r hr).imp_right fun ⟨d, hd, hname⟩ =>
        ⟨d, List.mem_append_left _ hd, hname⟩, fun d hd => ?_⟩
      rcases List.mem_append.mp hd with hd | hd
      · exact hindexed d hd
      · -- The index of the call is that of an earlier one for the pair.
        obtain ⟨e, he, hsame⟩ := List.mem_map.mp hpair
        obtain rfl := List.mem_singleton.mp hd
        obtain ⟨r, hr, hname, lists, hkind⟩ := hindexed e he
        refine ⟨r, hr, hname.trans (stored_of_pair e d hsame), lists, ?_⟩
        rw [hkind, (Prod.mk.inj hsame).1, (Prod.mk.inj hsame).2]
    · rw [hensure]
      constructor
      · intro r hr
        rcases List.mem_append.mp hr with hr | hr
        · exact (hfrom r hr).imp_right fun ⟨d, hd, hname⟩ => ⟨d, List.mem_append_left _ hd, hname⟩
        · rw [List.mem_singleton.mp hr]
          exact .inr ⟨c, List.mem_append_right _ List.mem_cons_self, rfl⟩
      · intro d hd
        rcases List.mem_append.mp hd with hd | hd
        · obtain ⟨r, hr, hname⟩ := hindexed d hd
          exact ⟨r, List.mem_append_left _ hr, hname⟩
        · obtain rfl := List.mem_singleton.mp hd
          exact ⟨_, List.mem_append_right _ List.mem_cons_self, rfl, lists, rfl⟩

include hread hcalls in
/-- If the names tell the pairs apart, all goes well. -/
theorem indexedOnce_of_toldApart (h : ToldApart readName start calls) :
    IndexedOnce readName start calls := by
  intro before c after heq
  obtain ⟨hfrom, hindexed⟩ := relations_of_toldApart hread hcalls h before (c :: after) heq
  rcases ensure_of_toldApart hread hcalls h before after c heq _ hfrom
    hindexed with ⟨hpair, hensure⟩ | ⟨hpair, lists, hensure⟩
  · rw [hensure, decide_eq_false (not_not_intro hpair)]
    obtain ⟨d, hd, hsame⟩ := List.mem_map.mp hpair
    obtain ⟨r, hr, _, lists, hkind⟩ := hindexed d hd
    refine ⟨rfl, r, hr, lists, ?_⟩
    rw [hkind, (Prod.mk.inj hsame).1, (Prod.mk.inj hsame).2]
  · rw [hensure, decide_eq_true hpair]
    exact ⟨rfl, _, List.mem_append_right _ List.mem_cons_self, lists, rfl⟩

end

end

/-! ### The result -/

/-- Every call does what it is for exactly if the names tell the pairs apart. -/
theorem indexed_once_iff (readName : String → String)
    (hread : ∀ name, readName name = name ∨ readName name = truncateName name)
    (start : List Relation) (calls : List IndexCall)
    (hcalls : ∀ c ∈ calls, IndexCall.Undisturbed c) :
    IndexedOnce readName start calls ↔ ToldApart readName start calls :=
  ⟨toldApart_of_indexedOnce hread hcalls,
    indexedOnce_of_toldApart hread hcalls⟩

/-- A call on a table with a thousand rows. -/
def plainIndexCall (table column : String) : IndexCall :=
  { table := table, column := column, minRows := 1000, lists := 0, existsError := none
    count := .ok 1000 }

theorem plainIndexCall_undisturbed {table column : String} (htable : isSafeIdent table = true)
    (hcolumn : isSafeIdent column = true) : IndexCall.Undisturbed (plainIndexCall table column) :=
  ⟨htable, hcolumn, rfl, 1000, rfl, Int.le_refl _⟩

/-- A pair, another one with another name, and the first one again. -/
def twoPairs : List IndexCall :=
  [plainIndexCall "docs" "embedding", plainIndexCall "notes" "embedding",
    plainIndexCall "docs" "embedding"]

theorem mem_twoPairs {c : IndexCall} (hc : c ∈ twoPairs) :
    c = plainIndexCall "docs" "embedding" ∨ c = plainIndexCall "notes" "embedding" := by
  simp only [twoPairs, List.mem_cons, List.not_mem_nil, or_false] at hc
  rcases hc with hc | hc | hc
  · exact .inl hc
  · exact .inr hc
  · exact .inl hc

/-- Both pairs get their index, and the call that comes back finds its own. -/
theorem two_pairs_indexed_once : IndexedOnce id [] twoPairs := by
  refine (indexed_once_iff id (fun _ => .inl rfl) [] _ ?_).mpr ⟨?_, ?_, ?_⟩
  · intro c hc
    rcases mem_twoPairs hc with rfl | rfl
    · exact plainIndexCall_undisturbed (by decide) (by decide)
    · exact plainIndexCall_undisturbed (by decide) (by decide)
  · exact fun c _ r hr => absurd hr List.not_mem_nil
  · -- One name means one pair: where the pairs differ, so do the names.
    intro c hc d hd
    rcases mem_twoPairs hc with rfl | rfl <;> rcases mem_twoPairs hd with rfl | rfl <;> decide
  · intro before c after heq _
    have hc : c ∈ twoPairs := heq ▸ List.mem_append_right _ List.mem_cons_self
    rcases mem_twoPairs hc with rfl | rfl <;> decide

/-- Two pairs that have one name. The second one gets no index, and no error. -/
theorem two_pairs_one_name :
    (ensureIVFFlatIndex id
        (ensureAll id [] [plainIndexCall "docs_title" "vec"])
          (plainIndexCall "docs" "title_vec")).1 =
      .ok false ∧
    ¬IndexedOnce id [] [plainIndexCall "docs_title" "vec", plainIndexCall "docs" "title_vec"] := by
  have hfalse : (ensureIVFFlatIndex id
      (ensureAll id [] [plainIndexCall "docs_title" "vec"]) (plainIndexCall "docs" "title_vec")).1 =
      .ok false := by decide
  refine ⟨hfalse, fun h => ?_⟩
  have htrue := (h [plainIndexCall "docs_title" "vec"] (plainIndexCall "docs" "title_vec") [] rfl).1
  rw [hfalse] at htrue
  exact absurd htrue (by decide)

end CoopDB
