import CoopDB.Theory.Json.Decode

/-!
# What a Document Says

Two texts are the same JSON document if they differ in nothing a reader of JSON
takes notice of: the spaces between the tokens, the escapes of a string and the
order of the fields of an object.

A body is a sequence of bytes. It is read with the grammar alone, without the
depth limit of the library, so that no body is refused here that another reader
accepts.

## Main definitions

* `unlessEmpty`: A field that may be left out.
* `documentOf`: The document in a body.
* `Value.canonical`: A value with the fields of its objects in order, and the last one of
  a name for that name, as a map has them.
* `SameDocument`: Two bodies with one document.

## Theorems

* `field_append`, `field_cons`, `field_unlessEmpty`: Finding a field.
* `documentOf_marshal`: The document of a body that was written from a value.
* `SameDocument.canonical`, `field_isSome_of_canonical`: One document has one set of
  fields.
-/

namespace CoopDB

open Json

/-! ### Lists of values -/

theorem marshalElems_strings (xs : List String) :
    marshalElems (xs.map .string) = some (xs.map quote) := by
  induction xs with
  | nil => rfl
  | cons x xs ih =>
    rw [List.map_cons, marshalElems, ih, Value.marshal]
    rfl

theorem validElems_strings (xs : List String) : validElems (xs.map .string) = true := by
  induction xs with
  | nil => rfl
  | cons x xs ih =>
    rw [List.map_cons, validElems, ih]
    rfl

theorem depthElems_strings (xs : List String) : depthElems (xs.map .string) = 0 := by
  induction xs with
  | nil => rfl
  | cons x xs ih =>
    rw [List.map_cons, depthElems, ih]
    rfl

theorem depthElems_le {vs : List Value} {n : Nat} (h : ∀ v ∈ vs, v.depth ≤ n) :
    depthElems vs ≤ n := by
  induction vs with
  | nil => exact Nat.zero_le n
  | cons v vs ih =>
    rw [depthElems]
    exact max_le (h v List.mem_cons_self) (ih fun w hw => h w (List.mem_cons_of_mem v hw))

theorem mapM_some {α β : Type} {f : α → Option β} {g : α → β} {xs : List α}
    (h : ∀ x ∈ xs, f x = some (g x)) : xs.mapM f = some (xs.map g) := by
  induction xs with
  | nil => rfl
  | cons x xs ih =>
    rw [List.mapM_cons, h x List.mem_cons_self, ih fun y hy => h y (List.mem_cons_of_mem x hy)]
    rfl

/-- Elements that are read back one by one are read back as a list. -/
theorem mapM_written {α β : Type} {f : β → Option α} {g : α → β} (h : ∀ x, f (g x) = some x)
    {xs : List α} : (xs.map g).mapM f = some xs := by
  rw [List.mapM_map]
  exact (mapM_some (g := id) fun x _ => h x).trans (congrArg some (List.map_id xs))

theorem validElems_of_forall {vs : List Value} (h : ∀ v ∈ vs, v.valid = true) :
    validElems vs = true := by
  induction vs with
  | nil => rfl
  | cons v vs ih =>
    rw [validElems, h v List.mem_cons_self, ih fun w hw => h w (List.mem_cons_of_mem v hw)]
    rfl

/-! ### Fields -/

/-- A field that is left out when it is empty. -/
def unlessEmpty (empty : Bool) (name : String) (v : Value) : List (String × Value) :=
  if empty then [] else [(name, v)]

theorem marshalFields_append {fields more : List (String × Value)}
    {texts rest : List (String × String)}
    (hfields : marshalFields fields = some texts) (hmore : marshalFields more = some rest) :
    marshalFields (fields ++ more) = some (texts ++ rest) := by
  induction fields generalizing texts with
  | nil =>
    cases hfields
    exact hmore
  | cons f fields ih =>
    obtain ⟨text, tail, rfl, htext, htail⟩ := marshalFields_cons hfields
    rw [List.cons_append, marshalFields, htext, ih htail]
    rfl

theorem marshalFields_unlessEmpty {empty : Bool} {name text : String} {v : Value}
    (h : v.marshal = some text) :
    marshalFields (unlessEmpty empty name v) = some (if empty then [] else [(name, text)]) := by
  cases empty with
  | true => rfl
  | false =>
    change marshalFields [(name, v)] = some [(name, text)]
    rw [marshalFields, h]
    rfl

theorem validFields_append (fields more : List (String × Value)) :
    validFields (fields ++ more) = (validFields fields && validFields more) := by
  induction fields with
  | nil => rw [List.nil_append, validFields, Bool.true_and]
  | cons f fields ih => rw [List.cons_append, validFields, validFields, ih, Bool.and_assoc]

theorem validFields_unlessEmpty {empty : Bool} {name : String} {v : Value} (h : v.valid = true) :
    validFields (unlessEmpty empty name v) = true := by
  cases empty with
  | true => rfl
  | false =>
    change validFields [(name, v)] = true
    rw [validFields, h]
    rfl

theorem depthFields_append (fields more : List (String × Value)) :
    depthFields (fields ++ more) = max (depthFields fields) (depthFields more) := by
  induction fields with
  | nil => rw [List.nil_append, depthFields, Nat.zero_max]
  | cons f fields ih => rw [List.cons_append, depthFields, depthFields, ih, max_assoc]

theorem depthFields_unlessEmpty {empty : Bool} {name : String} {v : Value} {n : Nat}
    (h : v.depth ≤ n) : depthFields (unlessEmpty empty name v) ≤ n := by
  cases empty with
  | true => exact Nat.zero_le n
  | false =>
    change depthFields [(name, v)] ≤ n
    rw [depthFields, depthFields]
    exact max_le h (Nat.zero_le n)

theorem field_append (name : String) (fields more : List (String × Value)) :
    field name (fields ++ more) = (field name more).or (field name fields) := by
  unfold field
  rw [List.reverse_append, List.lookup_append]

theorem field_cons (name other : String) (v : Value) (fields : List (String × Value)) :
    field name ((other, v) :: fields) =
      (field name fields).or (if name = other then some v else none) := by
  rw [← List.singleton_append, field_append]
  congr 1
  unfold field
  rw [List.reverse_singleton, List.lookup_cons]
  by_cases h : name = other
  · rw [if_pos h, h, beq_self_eq_true]
  · rw [if_neg h, beq_eq_false_iff_ne.mpr h]
    rfl

theorem field_nil (name : String) : field name [] = none := rfl

theorem field_unlessEmpty (name other : String) (v : Value) (empty : Bool) :
    field name (unlessEmpty empty other v) =
      if name = other then (if empty then none else some v) else none := by
  cases empty with
  | true => exact (ite_self none).symm
  | false =>
    change field name [(other, v)] = _
    rw [field_cons, field_nil, Option.none_or]
    rfl

theorem sliceField_unlessEmpty {α : Type} {elem : Value → Option α} {vs : List Value} {xs : List α}
    {empty : Bool} (h : vs.mapM elem = some xs) :
    sliceField elem (if empty then none else some (.array vs)) =
      some (if empty then none else some xs) := by
  cases empty with
  | true => rfl
  | false =>
    change (vs.mapM elem).map some = some (some xs)
    rw [h, Option.map_some]

namespace Json

/-! ### Maps -/

theorem lookup_field (name key : String) (v : Value) (fields : List (String × Value)) :
    ((name, v) :: fields).lookup key = if key = name then some v else fields.lookup key := by
  by_cases hkey : key = name
  · rw [if_pos hkey, hkey, List.lookup_cons_self]
  · rw [if_neg hkey, List.lookup_cons, beq_false_of_ne hkey]

/-- A field that is put into a map is the one of its name. -/
theorem lookup_insertField (name key : String) (v : Value) (fields : List (String × Value)) :
    (insertField name v fields).lookup key =
      if key = name then some v else fields.lookup key := by
  induction fields with
  | nil => rw [insertField, lookup_field]
  | cons f fields ih =>
    obtain ⟨n, w⟩ := f
    rw [insertField]
    by_cases hsame : name = n
    · subst hsame
      rw [if_pos rfl, lookup_field, lookup_field]
      by_cases hkey : key = name
      · rw [if_pos hkey, if_pos hkey]
      · rw [if_neg hkey, if_neg hkey, if_neg hkey]
    · rw [if_neg hsame]
      by_cases hlt : name < n
      · rw [if_pos hlt, lookup_field]
      · rw [if_neg hlt, lookup_field, lookup_field, ih]
        by_cases hn : key = n
        · rw [if_pos hn, if_pos hn, if_neg (fun h => hsame (h.symm.trans hn))]
        · rw [if_neg hn, if_neg hn]

/-- A map has under each name the last field of that name. -/
theorem lookup_mapOf (key : String) (fields : List (String × Value)) :
    (mapOf fields).lookup key = field key fields := by
  -- What is in the map already comes last.
  have hfold : ∀ (fields m : List (String × Value)),
      (fields.foldl (fun m f => insertField f.1 f.2 m) m).lookup key =
        (field key fields).or (m.lookup key) := by
    intro fields
    induction fields with
    | nil => exact fun m => rfl
    | cons f fields ih =>
      intro m
      obtain ⟨name, v⟩ := f
      rw [List.foldl_cons, ih, field_cons, Option.or_assoc, lookup_insertField]
      by_cases hkey : key = name
      · rw [if_pos hkey, if_pos hkey, Option.some_or]
      · rw [if_neg hkey, if_neg hkey, Option.none_or]
  rw [mapOf, hfold, List.lookup_nil, Option.or_none]

/-! ### Documents -/

/-- The document in a body. -/
def documentOf (body : Bytes) : Option Value :=
  (textOf body).bind readDocument

/-- The document of a body that was written from a value. -/
theorem documentOf_marshal {v : Value} {text : String} (space : String) (hvalid : v.valid = true)
    (htext : v.marshal = some text) (hspace : space.toList.all isSpace = true) :
    documentOf (utf8 (text ++ space)) = some v := by
  rw [documentOf, textOf_utf8, Option.bind_some, readDocument_marshal space hvalid htext hspace]

/-- The same without spaces after it. -/
theorem documentOf_text {v : Value} {text : String} (hvalid : v.valid = true)
    (htext : v.marshal = some text) : documentOf (utf8 text) = some v := by
  rw [documentOf, textOf_utf8, Option.bind_some, readDocument_text hvalid htext]

mutual

/-- The value with the fields of its objects in order, one for each name. -/
def Value.canonical : Value → Value
  | .array vs => .array (canonicalElems vs)
  | .object fields => .object (mapOf (canonicalFields fields))
  | v => v

/-- The elements of an array. -/
def canonicalElems : List Value → List Value
  | [] => []
  | v :: vs => v.canonical :: canonicalElems vs

/-- The fields of an object, where they are. -/
def canonicalFields : List (String × Value) → List (String × Value)
  | [] => []
  | (name, v) :: fields => (name, v.canonical) :: canonicalFields fields

end

theorem field_canonicalFields (key : String) (fields : List (String × Value)) :
    field key (canonicalFields fields) = (field key fields).map Value.canonical := by
  induction fields with
  | nil => rfl
  | cons f fields ih =>
    obtain ⟨name, v⟩ := f
    rw [canonicalFields, field_cons, field_cons, ih]
    by_cases hkey : key = name
    · simp [if_pos hkey]
    · simp [if_neg hkey]

/-- Two bodies with one JSON document: they are equal, or both of them are
    documents and say the same. -/
def SameDocument (a b : Bytes) : Prop :=
  a = b ∨ ∃ v w, documentOf a = some v ∧ documentOf b = some w ∧ v.canonical = w.canonical

/-- Bodies with one document say the same. -/
theorem SameDocument.canonical {a b : Bytes} {v w : Value} (h : SameDocument a b)
    (ha : documentOf a = some v) (hb : documentOf b = some w) : v.canonical = w.canonical := by
  rcases h with rfl | ⟨v', w', hv', hw', hsame⟩
  · rw [ha, Option.some.injEq] at hb
    rw [hb]
  · rw [ha, Option.some.injEq] at hv'
    rw [hb, Option.some.injEq] at hw'
    rw [hv', hw', hsame]

/-- Objects that say the same have fields of the same names. -/
theorem field_isSome_of_canonical {fs gs : List (String × Value)}
    (h : (Value.object fs).canonical = (Value.object gs).canonical) (key : String) :
    (field key fs).isSome = (field key gs).isSome := by
  rw [Value.canonical, Value.canonical, Value.object.injEq] at h
  have hfield : (field key fs).map Value.canonical = (field key gs).map Value.canonical := by
    rw [← field_canonicalFields, ← field_canonicalFields, ← lookup_mapOf, ← lookup_mapOf, h]
  rw [← Option.isSome_map, hfield, Option.isSome_map]

end Json

end CoopDB
