import CoopDB.Core.Mcp
import CoopDB.Core.RequestBody
import CoopDB.Theory.Json.Document

/-!
# Values Inside a Document

A path leads to a value inside a document, by the indices of arrays and the
names of fields. Of several fields of one name the last one counts.

An array that is read keeps its order. The fields of a map are in another order, but
each name has one field there (`sorted_mapOf`), and that is the last one of the
document.

## Main definitions

* `Step`, `Value.locate`: Paths, and the value at the end of one.
* `paramsOf`, `argsOf`: The parameters and the arguments in a body.

## Theorems

* `decode_locate`: What an `any` holds at a place is what the value at this place of the
  document is read as.
* `unmarshalSQL_params`, `unmarshalRPC_args`: What is read of a body.
* `unmarshalSQL_eq`, `unmarshalRPC_eq`: Bodies with one spelling and one field
  of a name are read as those of the client are.
-/

namespace CoopDB

namespace Json

/-- A step from a value into it. -/
inductive Step
  | index (n : Nat)
  | field (name : String)

/-- The value at the end of a path. -/
def Value.locate : Value → List Step → Option Value
  | v, [] => some v
  | .array vs, .index n :: path => (vs[n]?).bind fun v => v.locate path
  | .object fields, .field name :: path => (field name fields).bind fun v => v.locate path
  | _, _ :: _ => none

/-! ### Maps have one field of a name -/

theorem mem_insertField {name : String} {v : Value} {f : String × Value}
    {fields : List (String × Value)} (h : f ∈ insertField name v fields) :
    f = (name, v) ∨ f ∈ fields := by
  induction fields with
  | nil => exact .inl (List.mem_singleton.mp h)
  | cons g fields ih =>
    rw [insertField] at h
    by_cases hsame : name = g.1
    · rw [if_pos hsame, List.mem_cons] at h
      exact h.imp_right (List.mem_cons_of_mem g)
    · rw [if_neg hsame] at h
      by_cases hlt : name < g.1
      · rw [if_pos hlt, List.mem_cons] at h
        exact h
      · rw [if_neg hlt, List.mem_cons] at h
        rcases h with rfl | h
        · exact .inr List.mem_cons_self
        · exact (ih h).imp_right (List.mem_cons_of_mem g)

/-- The fields are in the order of their names, and no two have one name. -/
def Sorted (fields : List (String × Value)) : Prop :=
  fields.Pairwise fun f g => f.1 < g.1

theorem sorted_insertField {name : String} {v : Value} {fields : List (String × Value)}
    (h : Sorted fields) : Sorted (insertField name v fields) := by
  induction fields with
  | nil => exact List.pairwise_singleton _ _
  | cons g fields ih =>
    obtain ⟨hhead, htail⟩ := List.pairwise_cons.mp h
    rw [insertField]
    by_cases hsame : name = g.1
    · rw [if_pos hsame, hsame]
      exact List.pairwise_cons.mpr ⟨hhead, htail⟩
    · rw [if_neg hsame]
      by_cases hlt : name < g.1
      · rw [if_pos hlt]
        refine List.pairwise_cons.mpr ⟨fun f hf => ?_, h⟩
        rcases List.mem_cons.mp hf with rfl | hf
        · exact hlt
        · exact String.lt_trans hlt (hhead f hf)
      · rw [if_neg hlt]
        refine List.pairwise_cons.mpr ⟨fun f hf => ?_, ih htail⟩
        rcases mem_insertField hf with rfl | hf
        · -- The name is neither that of the head nor before it.
          refine String.not_le.mp fun hle => hsame ?_
          exact String.le_antisymm hle (String.not_lt.mp hlt)
        · exact hhead f hf

theorem sorted_mapOf (fields : List (String × Value)) : Sorted (mapOf fields) := by
  have hfold : ∀ (fields m : List (String × Value)), Sorted m →
      Sorted (fields.foldl (fun m f => insertField f.1 f.2 m) m) := by
    intro fields
    induction fields with
    | nil => exact fun m hm => hm
    | cons f fields ih => exact fun m hm => ih _ (sorted_insertField hm)
  exact hfold fields [] List.Pairwise.nil

/-- With one field of a name, the last one is the first one. -/
theorem field_eq_lookup {fields : List (String × Value)} (h : Sorted fields) (key : String) :
    field key fields = fields.lookup key := by
  induction fields with
  | nil => rfl
  | cons f fields ih =>
    obtain ⟨name, v⟩ := f
    obtain ⟨hhead, htail⟩ := List.pairwise_cons.mp h
    rw [field_cons, lookup_field, ih htail]
    by_cases hkey : key = name
    · -- All later fields have names behind this one.
      have hnone : fields.lookup key = none := by
        rw [List.lookup_eq_none_iff]
        intro g hg
        rw [hkey]
        exact bne_iff_ne.mpr (String.ne_of_lt (hhead g hg))
      rw [if_pos hkey, if_pos hkey, hnone, Option.none_or]
    · rw [if_neg hkey, if_neg hkey, Option.or_none]

/-- A field of a map is the last one of its name. -/
theorem field_mapOf (key : String) (fields : List (String × Value)) :
    field key (mapOf fields) = field key fields := by
  rw [field_eq_lookup (sorted_mapOf fields), lookup_mapOf]

/-! ### Reading keeps the places -/

section Decode

variable (j : GoJson)

theorem decodeElems_getElem {vs ws : List Value} (h : j.decodeElems vs = some ws) {n : Nat}
    {v : Value} (hv : vs[n]? = some v) : ∃ w, ws[n]? = some w ∧ j.decode v = some w := by
  induction vs generalizing ws n with
  | nil => cases hv
  | cons x vs ih =>
    obtain ⟨w, tail, rfl, hw, htail⟩ := decodeElems_cons j h
    cases n with
    | zero =>
      rw [List.getElem?_cons_zero, Option.some.injEq] at hv
      subst hv
      exact ⟨w, rfl, hw⟩
    | succ => exact ih htail hv

/-- The fields that were read have the names of those they were read from. -/
theorem decodeFields_field {fs ws : List (String × Value)} (h : j.decodeFields fs = some ws)
    (name : String) :
    (field name fs = none ∧ field name ws = none) ∨
      ∃ v w, field name fs = some v ∧ field name ws = some w ∧ j.decode v = some w := by
  induction fs generalizing ws with
  | nil =>
    cases h
    exact .inl ⟨rfl, rfl⟩
  | cons f fs ih =>
    obtain ⟨other, x⟩ := f
    obtain ⟨w, tail, rfl, hw, htail⟩ := decodeFields_cons j h
    rw [field_cons, field_cons]
    rcases ih htail with ⟨hnone, hnone'⟩ | ⟨v', w', hv', hw', hdecode⟩
    · rw [hnone, hnone', Option.none_or, Option.none_or]
      by_cases hname : name = other
      · rw [if_pos hname, if_pos hname]
        exact .inr ⟨x, w, rfl, rfl, hw⟩
      · rw [if_neg hname, if_neg hname]
        exact .inl ⟨rfl, rfl⟩
    · rw [hv', hw', Option.some_or, Option.some_or]
      exact .inr ⟨v', w', rfl, rfl, hdecode⟩

/-- What is held at a place is what the value at that place is read as. -/
theorem decode_locate {v w : Value} (h : j.decode v = some w) {path : List Step} {x : Value}
    (hx : v.locate path = some x) : ∃ y, w.locate path = some y ∧ j.decode x = some y := by
  induction path generalizing v w with
  | nil =>
    rw [Value.locate, Option.some.injEq] at hx
    subst hx
    exact ⟨w, rfl, h⟩
  | cons step path ih =>
    cases v with
    | array =>
      cases step with
      | field => cases hx
      | index =>
        rw [GoJson.decode, Option.map_eq_some_iff] at h
        rcases h with ⟨ws, hws, rfl⟩
        rw [Value.locate, Option.bind_eq_some_iff] at hx
        rcases hx with ⟨v', hv', hx⟩
        rcases decodeElems_getElem j hws hv' with ⟨w', hw', hdecode⟩
        rcases ih hdecode hx with ⟨y, hy, hdecoded⟩
        exact ⟨y, by rw [Value.locate, hw', Option.bind_some, hy], hdecoded⟩
    | object =>
      cases step with
      | index => cases hx
      | field name =>
        rw [GoJson.decode, Option.map_eq_some_iff] at h
        rcases h with ⟨ws, hws, rfl⟩
        rw [Value.locate, Option.bind_eq_some_iff] at hx
        rcases hx with ⟨v', hv', hx⟩
        rcases decodeFields_field j hws name with ⟨hnone, _⟩ | ⟨v, w, hv, hw, hdecode⟩
        · exact nomatch (hnone.symm.trans hv')
        · rw [hv', Option.some.injEq] at hv
          subst hv
          rcases ih hdecode hx with ⟨y, hy, hdecoded⟩
          exact ⟨y, by rw [Value.locate, field_mapOf, hw, Option.bind_some, hy], hdecoded⟩
    | _ =>
      -- There is no step into anything else.
      cases step with
      | index | field => cases hx

/-! ### Bodies -/

theorem fieldsOf_cons (name other : String) (v : Value) (fields : List (String × Value)) :
    fieldsOf name ((other, v) :: fields) =
      if other.toList.map foldRune = name.toList then v :: fieldsOf name fields
      else fieldsOf name fields := by
  unfold fieldsOf
  rw [List.filter_cons]
  by_cases h : other.toList.map foldRune = name.toList
  · rw [if_pos h, if_pos (decide_eq_true h), List.map_cons]
  · rw [if_neg h, if_neg (by rw [decide_eq_false h]; exact Bool.false_ne_true)]

/-- The parameters in a body: the last field that is stored. -/
def paramsOf : Value → Value
  | .object fields => ((fieldsOf "params" fields).getLast?).getD .null
  | _ => .null

/-- The fields of the arguments after one more value has been stored. -/
def addFields (fields : List (String × Value)) : Value → List (String × Value)
  | .object more => fields ++ more
  | _ => []

/-- The arguments in a body: the fields of all the objects that are stored after
    the last null. -/
def argsOf : Value → Value
  | .object fields => .object ((fieldsOf "args" fields).foldl addFields [])
  | _ => .object []

/-- Storing one value after the other in a slice leaves the last one. -/
theorem foldlM_sliceField (vs : List Value) (init params : Slice Value)
    (h : vs.foldlM (fun _ v => sliceField j.decode (some v)) init = some params) :
    (vs = [] ∧ params = init) ∨
      ∃ v, vs.getLast? = some v ∧ sliceField j.decode (some v) = some params := by
  induction vs generalizing init with
  | nil => exact .inl ⟨rfl, (Option.some.inj h).symm⟩
  | cons v vs ih =>
    rw [List.foldlM_cons, Option.bind_eq_bind, Option.bind_eq_some_iff] at h
    rcases h with ⟨next, hnext, h⟩
    rcases ih next h with ⟨rfl, rfl⟩ | ⟨last, hlast, hparams⟩
    · exact .inr ⟨v, rfl, hnext⟩
    · refine .inr ⟨last, ?_, hparams⟩
      rw [List.getLast?_cons, hlast, Option.getD_some]

/-- The parameters that are read are those in the body. -/
theorem unmarshalSQL_params {doc : Value} {req : SqlExecuteRequest}
    (h : j.unmarshalSQL doc = some req) :
    paramsOf doc = .null ∨ j.decode (paramsOf doc) = some (.array req.params) := by
  cases doc with
  | object =>
    rw [GoJson.unmarshalSQL, Option.bind_eq_bind, Option.bind_eq_some_iff] at h
    rcases h with ⟨sql, _, h⟩
    rw [Option.bind_eq_bind, Option.bind_eq_some_iff] at h
    rcases h with ⟨params, hparams, h⟩
    rw [← Option.some.inj h, paramsOf]
    rcases foldlM_sliceField j _ _ _ hparams with ⟨hnil, _⟩ | ⟨v, hlast, hslice⟩
    · rw [hnil]
      exact .inl rfl
    · rw [hlast, Option.getD_some]
      cases v with
      | null => exact .inl rfl
      | array =>
        rw [sliceField, Option.map_eq_some_iff] at hslice
        rcases hslice with ⟨ws, hws, rfl⟩
        rw [GoJson.decode, decodeElems_eq_mapM, hws]
        exact .inr rfl
      | _ => cases hslice
  | _ => exact .inl rfl

theorem decodeFields_append {fs gs us ws : List (String × Value)}
    (hfs : j.decodeFields fs = some us) (hgs : j.decodeFields gs = some ws) :
    j.decodeFields (fs ++ gs) = some (us ++ ws) := by
  induction fs generalizing us with
  | nil =>
    cases hfs
    exact hgs
  | cons f fs ih =>
    obtain ⟨name, v⟩ := f
    obtain ⟨w, tail, rfl, hw, htail⟩ := decodeFields_cons j hfs
    rw [List.cons_append, GoJson.decodeFields, hw, ih htail]
    rfl

theorem decodeFields_nil : j.decodeFields [] = some [] := rfl

/-- Storing one value after the other in a map leaves the map of all the fields. -/
theorem foldlM_addToMap (vs : List Value) {m args : Option (List (String × Value))}
    {fs ws : List (String × Value)} (hfs : j.decodeFields fs = some ws)
    (hm : m.getD [] = mapOf ws) (h : vs.foldlM j.addToMap m = some args) :
    ∃ us, j.decodeFields (vs.foldl addFields fs) = some us ∧ args.getD [] = mapOf us := by
  induction vs generalizing m fs ws with
  | nil =>
    rw [← Option.some.inj h]
    exact ⟨ws, hfs, hm⟩
  | cons v vs ih =>
    rw [List.foldlM_cons, Option.bind_eq_bind, Option.bind_eq_some_iff] at h
    rcases h with ⟨next, hnext, h⟩
    rw [List.foldl_cons]
    cases v with
    | null =>
      -- A null empties the map.
      rw [GoJson.addToMap, Option.some.injEq] at hnext
      subst hnext
      exact ih (decodeFields_nil j) rfl h
    | object =>
      rw [GoJson.addToMap, Option.map_eq_some_iff] at hnext
      rcases hnext with ⟨us, hus, rfl⟩
      refine ih (decodeFields_append j hfs hus) ?_ h
      rw [Option.getD_some, hm, mapOf, mapOf, List.foldl_append]
    | _ => cases hnext

/-- The arguments that are read are those in the body. -/
theorem unmarshalRPC_args {doc : Value} {req : RpcCallRequest}
    (h : j.unmarshalRPC doc = some req) : j.decode (argsOf doc) = some (.object req.args) := by
  cases doc with
  | null =>
    rw [← Option.some.inj h]
    rfl
  | object =>
    rw [GoJson.unmarshalRPC, Option.bind_eq_bind, Option.bind_eq_some_iff] at h
    rcases h with ⟨procedure, _, h⟩
    rw [Option.bind_eq_bind, Option.bind_eq_some_iff] at h
    rcases h with ⟨args, hargs, h⟩
    rcases foldlM_addToMap j _ (decodeFields_nil j) rfl hargs with ⟨us, hus, hmap⟩
    rw [← Option.some.inj h, argsOf, GoJson.decode, hus, hmap]
    rfl
  | _ => cases h

/-! ### Bodies of the client -/

/-- Each field is spelled as in the struct and occurs once at most. -/
def Plain (name : String) (fields : List (String × Value)) : Prop :=
  fieldsOf name fields = (field name fields).toList

theorem foldlM_setString {name : String} {fields : List (String × Value)} (h : Plain name fields) :
    (fieldsOf name fields).foldlM setString "" = stringField (field name fields) := by
  rw [h]
  cases field name fields with
  | none => rfl
  | some v => cases v <;> rfl

/-- A plain body is read as a body of the client is. -/
theorem unmarshalSQL_eq {fields : List (String × Value)} (hsql : Plain "sql" fields)
    (hparams : Plain "params" fields) :
    j.unmarshalSQL (.object fields) = j.decodeSqlRequest (.object fields) := by
  have hslice : (fieldsOf "params" fields).foldlM
      (fun _ v => sliceField j.decode (some v)) none =
      sliceField j.decode (field "params" fields) := by
    rw [hparams]
    cases field "params" fields with
    | none => rfl
    | some v =>
      rw [Option.toList_some, List.foldlM_cons]
      cases sliceField j.decode (some v) <;> rfl
  rw [GoJson.unmarshalSQL, GoJson.decodeSqlRequest, foldlM_setString hsql, hslice]

/-- A plain body is read as a body of the client is. -/
theorem unmarshalRPC_eq {fields : List (String × Value)} (hprocedure : Plain "procedure" fields)
    (hargs : Plain "args" fields) :
    j.unmarshalRPC (.object fields) = j.decodeRpcRequest (.object fields) := by
  have hadd : ∀ v, j.addToMap none v = j.decodeMap v := by
    intro v
    cases v <;> rfl
  have hmap : (fieldsOf "args" fields).foldlM j.addToMap none =
      j.decodeMap ((field "args" fields).getD .null) := by
    rw [hargs]
    cases field "args" fields with
    | none => rfl
    | some v =>
      rw [Option.toList_some, List.foldlM_cons, hadd, Option.getD_some]
      cases j.decodeMap v <;> rfl
  rw [GoJson.unmarshalRPC, GoJson.decodeRpcRequest, foldlM_setString hprocedure, hmap]

end Decode

end Json

end CoopDB
