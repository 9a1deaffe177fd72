import CoopDB.Core.Unmarshal
import Mathlib.Data.List.TakeWhile

/-!
# Reading What Was Written

A document `json.Marshal` has written is read back as the value it was written
from. The text of a value holds no spaces, so the grammar meets its tokens one
after the other, and a number ends where the text goes on with a comma, a
bracket or nothing.

The fuel of the reader is counted in characters. An array and its elements cost
one call more than the array has brackets, which is why twice the length is
enough.

## Main definitions

* `Value.valid`: Every number is a literal of the grammar.
* `Ends`: A text that cannot continue a number.
* `readDocument`: A document of any depth.

## Theorems

* `parseString_quote`: A string is read back.
* `reads`: So are a value, an array and an object, whatever follows.
* `readDocument_marshal`, `parse_marshal`, `unmarshal_marshal`: A whole text,
  and a body.
-/

namespace CoopDB

namespace Json

/-! ### Strings -/

theorem hexCode_control : ∀ n < 0x20,
    hexCode '0' '0' (Nat.digitChar (n / 16)) (Nat.digitChar (n % 16)) = some n := by
  decide

/-- The four digits of a control character are read as its code. -/
theorem parseString_control {n : Nat} (rest : List Char) (h : n < 0x20) :
    parseString none ('\\' :: 'u' :: '0' :: '0' :: Nat.digitChar (n / 16) ::
      Nat.digitChar (n % 16) :: rest) =
      (parseString none rest).map (precede [Char.ofNat n]) := by
  have hunit : codeUnitAfter none n = ([Char.ofNat n], none) := by
    rw [codeUnitAfter, codeUnit, if_neg (by omega), if_neg (by omega)]
  rw [parseString, hexCode_control n h, Option.bind_some, hunit]

/-- A character that is written as it is. -/
theorem parseString_plain (c : Char) (rest : List Char) (hquote : c ≠ '"') (hslash : c ≠ '\\')
    (hcontrol : ¬ c.toNat < 0x20) :
    parseString none (c :: rest) = (parseString none rest).map (precede [c]) := by
  rw [parseString.eq_def]
  split
  · simp_all
  · simp_all
  · simp_all
  · simp_all
  · rename_i heq
    cases heq
    rw [if_neg (not_or.mpr ⟨hslash, hcontrol⟩)]
    rfl

variable {fuel : Nat} {v : Value} {c : Char} {text : String}

theorem char_of_toNat {n : Nat} (h : c.toNat = n) : c = Char.ofNat n := by
  rw [← h, Char.ofNat_toNat]

theorem parseString_escape (c : Char) (rest : List Char) :
    parseString none ((escape c).toList ++ rest) = (parseString none rest).map (precede [c]) := by
  unfold escape
  split
  case h_13 n hquote hslash _ _ _ _ _ _ _ _ _ _ =>
    by_cases hcontrol : c.toNat < 0x20
    · rw [if_pos hcontrol]
      have htext : ("\\u00" ++ String.singleton (Nat.digitChar (c.toNat / 16)) ++
          String.singleton (Nat.digitChar (c.toNat % 16))).toList ++ rest =
          '\\' :: 'u' :: '0' :: '0' :: Nat.digitChar (c.toNat / 16) ::
            Nat.digitChar (c.toNat % 16) :: rest := by
        rw [String.toList_append, String.toList_append, String.toList_singleton,
          String.toList_singleton]
        rfl
      rw [htext, parseString_control rest hcontrol, Char.ofNat_toNat]
    · rw [if_neg hcontrol, String.toList_singleton]
      refine parseString_plain c rest ?_ ?_ hcontrol
      · rintro rfl
        exact hquote rfl
      · rintro rfl
        exact hslash rfl
  -- The twelve escapes with a fixed text.
  all_goals
    rename_i h
    rw [char_of_toNat h]
    rfl

theorem parseString_escaped (cs rest : List Char) :
    parseString none (cs.flatMap (fun c => (escape c).toList) ++ '"' :: rest) =
      some (cs, rest) := by
  induction cs with
  | nil => rfl
  | cons c cs ih =>
    rw [List.flatMap_cons, List.append_assoc, parseString_escape, ih]
    rfl

theorem toList_quote (s : String) :
    (quote s).toList = '"' :: (s.toList.flatMap (fun c => (escape c).toList) ++ ['"']) := by
  unfold quote
  rw [String.toList_append, String.toList_append, String.toList_join, List.flatMap_map]
  rfl

/-- A string is read back. -/
theorem parseString_quote (s : String) (rest : List Char) :
    ∃ text, (quote s).toList ++ rest = '"' :: text ∧
      parseString none text = some (s.toList, rest) := by
  refine ⟨s.toList.flatMap (fun c => (escape c).toList) ++ '"' :: rest, ?_,
    parseString_escaped s.toList rest⟩
  rw [toList_quote, List.cons_append, List.append_assoc]
  rfl

/-! ### Numbers -/

/-- A text that cannot continue a number. -/
def Ends (rest : List Char) : Prop :=
  ∀ c tail, rest = c :: tail → numberChar c = false

theorem ends_cons {tail : List Char} (h : numberChar c = false) : Ends (c :: tail) := by
  intro d rest heq
  rw [List.cons.injEq] at heq
  rw [← heq.1]
  exact h

theorem takeWhile_number {text rest : List Char} (htext : text.all numberChar = true)
    (hrest : Ends rest) :
    (text ++ rest).takeWhile numberChar = text ∧ (text ++ rest).dropWhile numberChar = rest := by
  rw [List.all_eq_true] at htext
  rw [List.takeWhile_append_of_pos htext, List.dropWhile_append_of_pos htext]
  cases rest with
  | nil => exact ⟨List.append_nil text, rfl⟩
  | cons c tail =>
    have hc := hrest c tail rfl
    rw [List.takeWhile_cons_of_neg (by rw [hc]; exact Bool.false_ne_true),
      List.dropWhile_cons_of_neg (by rw [hc]; exact Bool.false_ne_true)]
    exact ⟨List.append_nil text, rfl⟩

theorem parseNumber_literal {lit : String} {rest : List Char} (h : isNumber lit.toList)
    (hrest : Ends rest) :
    parseNumber (lit.toList ++ rest) = some (.number lit, rest) := by
  have hall : lit.toList.all numberChar = true := by
    unfold isNumber at h
    rw [Bool.and_eq_true] at h
    exact h.1
  obtain ⟨htake, hdrop⟩ := takeWhile_number hall hrest
  unfold parseNumber
  rw [htake, hdrop, if_pos h, String.ofList_toList]

/-- A number starts with none of the characters the other values start with. -/
theorem numberChar_ne (h : numberChar c = true) :
    isSpace c = false ∧ c ≠ '[' ∧ c ≠ '{' ∧ c ≠ '"' ∧ c ≠ 'n' ∧ c ≠ 't' ∧ c ≠ 'f' ∧ c ≠ ']' := by
  refine ⟨?_, ?_, ?_, ?_, ?_, ?_, ?_, ?_⟩
  · unfold isSpace
    simp only [Bool.or_eq_false_iff, decide_eq_false_iff_not]
    refine ⟨⟨⟨?_, ?_⟩, ?_⟩, ?_⟩
    all_goals
      rintro rfl
      exact absurd h (by decide)
  all_goals
    rintro rfl
    exact absurd h (by decide)

/-! ### Values -/

mutual

/-- Every number is a literal of the grammar, and none is missing. -/
def Value.valid : Value → Bool
  | .number lit => isNumber lit.toList
  | .formless _ => false
  | .array vs => validElems vs
  | .object fields => validFields fields
  | _ => true

/-- Every element is valid. -/
def validElems : List Value → Bool
  | [] => true
  | v :: vs => v.valid && validElems vs

/-- Every field is valid. -/
def validFields : List (String × Value) → Bool
  | [] => true
  | (_, v) :: fields => v.valid && validFields fields

end

mutual

/-- A valid value has a text. -/
theorem marshal_of_valid : ∀ v : Value, v.valid = true → ∃ text, v.marshal = some text
  | .null, _ => ⟨_, rfl⟩
  | .bool _, _ => ⟨_, rfl⟩
  | .number _, _ => ⟨_, rfl⟩
  | .formless _, h => absurd h Bool.false_ne_true
  | .string _, _ => ⟨_, rfl⟩
  | .array vs, h => by
      obtain ⟨texts, htexts⟩ := marshalElems_of_valid vs h
      exact ⟨array texts, by rw [Value.marshal, htexts, Option.map_some]⟩
  | .object fields, h => by
      obtain ⟨texts, htexts⟩ := marshalFields_of_valid fields h
      exact ⟨object texts, by rw [Value.marshal, htexts, Option.map_some]⟩

theorem marshalElems_of_valid :
    ∀ vs : List Value, validElems vs = true → ∃ texts, marshalElems vs = some texts
  | [], _ => ⟨[], rfl⟩
  | v :: vs, h => by
      rw [validElems, Bool.and_eq_true] at h
      obtain ⟨text, htext⟩ := marshal_of_valid v h.1
      obtain ⟨texts, htexts⟩ := marshalElems_of_valid vs h.2
      exact ⟨text :: texts, by rw [marshalElems, htext, htexts]; rfl⟩

theorem marshalFields_of_valid :
    ∀ fields : List (String × Value), validFields fields = true →
      ∃ texts, marshalFields fields = some texts
  | [], _ => ⟨[], rfl⟩
  | (name, v) :: fields, h => by
      rw [validFields, Bool.and_eq_true] at h
      obtain ⟨text, htext⟩ := marshal_of_valid v h.1
      obtain ⟨texts, htexts⟩ := marshalFields_of_valid fields h.2
      exact ⟨(name, text) :: texts, by rw [marshalFields, htext, htexts]; rfl⟩

end

theorem marshalElems_cons {vs : List Value} {texts : List String}
    (h : marshalElems (v :: vs) = some texts) :
    ∃ text tail, texts = text :: tail ∧ v.marshal = some text ∧ marshalElems vs = some tail := by
  rw [marshalElems, Option.bind_eq_bind, Option.bind_eq_some_iff] at h
  obtain ⟨text, htext, h⟩ := h
  rw [Option.bind_eq_bind, Option.bind_eq_some_iff] at h
  obtain ⟨tail, htail, h⟩ := h
  exact ⟨text, tail, (Option.some.inj h).symm, htext, htail⟩

theorem marshalFields_cons {name : String} {v : Value} {fields : List (String × Value)}
    {texts : List (String × String)} (h : marshalFields ((name, v) :: fields) = some texts) :
    ∃ text tail, texts = (name, text) :: tail ∧ v.marshal = some text ∧
      marshalFields fields = some tail := by
  rw [marshalFields, Option.bind_eq_bind, Option.bind_eq_some_iff] at h
  obtain ⟨text, htext, h⟩ := h
  rw [Option.bind_eq_bind, Option.bind_eq_some_iff] at h
  obtain ⟨tail, htail, h⟩ := h
  exact ⟨text, tail, (Option.some.inj h).symm, htext, htail⟩

/-- Texts with commas between them. -/
def commas (texts : List String) : List Char :=
  List.intercalate [','] (texts.map String.toList)

theorem commas_singleton (text : String) : commas [text] = text.toList := by
  unfold commas
  rw [List.map_singleton, List.intercalate_singleton]

theorem commas_cons_cons (text next : String) (texts : List String) :
    commas (text :: next :: texts) = text.toList ++ ',' :: commas (next :: texts) := by
  unfold commas
  rw [List.map_cons, List.map_cons, List.intercalate_cons_cons, List.append_assoc]
  rfl

/-- The texts start as the first of them does. -/
theorem commas_head {c : Char} {inner : List Char} (texts : List String) (rest : List Char)
    (h : text.toList = c :: inner) : ∃ tail, commas (text :: texts) ++ rest = c :: tail := by
  cases texts with
  | nil => exact ⟨_, by rw [commas_singleton, h, List.cons_append]⟩
  | cons => exact ⟨_, by rw [commas_cons_cons, h, List.cons_append, List.cons_append]⟩

theorem toList_array (texts : List String) :
    (array texts).toList = '[' :: (commas texts ++ [']']) := by
  unfold array commas
  rw [String.toList_append, String.toList_append, String.toList_intercalate]
  rfl

/-- The text of a field. -/
def fieldText (f : String × String) : String :=
  quote f.1 ++ ":" ++ f.2

theorem toList_object (fields : List (String × String)) :
    (object fields).toList = '{' :: (commas (fields.map fieldText) ++ ['}']) := by
  unfold object commas
  rw [String.toList_append, String.toList_append, String.toList_intercalate]
  rfl

theorem toList_fieldText (name text : String) :
    (fieldText (name, text)).toList = (quote name).toList ++ ':' :: text.toList := by
  unfold fieldText
  rw [String.toList_append, String.toList_append, List.append_assoc]
  rfl

theorem skipSpace_cons (rest : List Char) (h : isSpace c = false) :
    skipSpace (c :: rest) = c :: rest :=
  List.dropWhile_cons_of_neg (by rw [h]; exact Bool.false_ne_true)

/-- The first character of a literal is one of a number. -/
theorem isNumber_head {text : List Char} (h : isNumber text) :
    ∃ c rest, text = c :: rest ∧ numberChar c = true := by
  cases text with
  | nil => exact absurd h (by decide)
  | cons c rest =>
    unfold isNumber at h
    rw [Bool.and_eq_true, List.all_cons, Bool.and_eq_true] at h
    exact ⟨c, rest, rfl, h.1.1⟩

/-- The text of a value starts with a token, and not with a closing bracket. -/
theorem marshal_head (hvalid : v.valid = true) (htext : v.marshal = some text) :
    ∃ c rest, text.toList = c :: rest ∧ isSpace c = false ∧ c ≠ ']' := by
  cases v with
  | null =>
    cases htext
    exact ⟨'n', ['u', 'l', 'l'], rfl, by decide, by decide⟩
  | bool b =>
    cases htext
    cases b with
    | true => exact ⟨'t', ['r', 'u', 'e'], rfl, by decide, by decide⟩
    | false => exact ⟨'f', ['a', 'l', 's', 'e'], rfl, by decide, by decide⟩
  | number =>
    cases htext
    obtain ⟨c, rest, hlit, hc⟩ := isNumber_head hvalid
    obtain ⟨hspace, -, -, -, -, -, -, hbracket⟩ := numberChar_ne hc
    exact ⟨c, rest, hlit, hspace, hbracket⟩
  | formless => exact absurd hvalid Bool.false_ne_true
  | string s =>
    cases htext
    exact ⟨'"', _, toList_quote s, by decide, by decide⟩
  | array =>
    rw [Value.marshal, Option.map_eq_some_iff] at htext
    obtain ⟨texts, -, rfl⟩ := htext
    exact ⟨'[', _, toList_array texts, by decide, by decide⟩
  | object =>
    rw [Value.marshal, Option.map_eq_some_iff] at htext
    obtain ⟨texts, -, rfl⟩ := htext
    exact ⟨'{', _, toList_object texts, by decide, by decide⟩

/-- What is read with a given fuel: a value, the elements of an array that is
    not empty, and the fields of an object that is not. -/
structure Reads (fuel : Nat) : Prop where
  value : ∀ (v : Value) (text : String) (rest : List Char), v.valid = true →
    v.marshal = some text → 2 * text.toList.length ≤ fuel → Ends rest →
    parseValue fuel (text.toList ++ rest) = some (v, rest)
  elems : ∀ (v : Value) (vs : List Value) (texts : List String) (rest : List Char),
    validElems (v :: vs) = true → marshalElems (v :: vs) = some texts →
    2 * (commas texts).length + 2 ≤ fuel →
    parseElems fuel (commas texts ++ ']' :: rest) = some (v :: vs, rest)
  fields : ∀ (f : String × Value) (fs : List (String × Value)) (texts : List (String × String))
    (rest : List Char), validFields (f :: fs) = true → marshalFields (f :: fs) = some texts →
    2 * (commas (texts.map fieldText)).length + 2 ≤ fuel →
    parseFields fuel (commas (texts.map fieldText) ++ '}' :: rest) = some (f :: fs, rest)

theorem parseElems_marshal (ih : Reads fuel) {v : Value} {vs : List Value} {texts : List String}
    (rest : List Char) (hvalid : validElems (v :: vs) = true)
    (htexts : marshalElems (v :: vs) = some texts)
    (hfuel : 2 * (commas texts).length + 2 ≤ fuel + 1) :
    parseElems (fuel + 1) (commas texts ++ ']' :: rest) = some (v :: vs, rest) := by
  obtain ⟨text, tail, rfl, htext, htail⟩ := marshalElems_cons htexts
  rw [validElems, Bool.and_eq_true] at hvalid
  cases vs with
  | nil =>
    cases htail
    rw [commas_singleton] at hfuel ⊢
    have hv := ih.value v text (']' :: rest) hvalid.1 htext (by omega) (ends_cons (by decide))
    rw [parseElems, hv]
    rfl
  | cons w ws =>
    -- The comma pays for the call that reads the elements behind it.
    obtain ⟨next, tail, rfl, -, -⟩ := marshalElems_cons htail
    rw [commas_cons_cons, List.length_append, List.length_cons] at hfuel
    rw [commas_cons_cons, List.append_assoc, List.cons_append]
    have hv := ih.value v text (',' :: (commas (next :: tail) ++ ']' :: rest)) hvalid.1 htext
      (by omega) (ends_cons (by decide))
    have hvs := ih.elems w ws (next :: tail) rest hvalid.2 htail (by omega)
    rw [parseElems, hv]
    exact congrArg (Option.map fun p => (v :: p.1, p.2)) hvs

/-- One field is read up to the character behind its value. -/
theorem parseFields_field {name : String} {v : Value} {c : Char} {inner text rest : List Char}
    (hname : parseString none inner = some (name.toList, ':' :: text))
    (hv : parseValue fuel text = some (v, c :: rest)) (hc : isSpace c = false) :
    parseFields (fuel + 1) ('"' :: inner) =
      if c = '}' then some ([(name, v)], rest)
      else if c = ',' then (parseFields fuel rest).map fun p => ((name, v) :: p.1, p.2)
      else none := by
  rw [parseFields, skipSpace_cons _ (by decide)]
  simp only [if_true]
  rw [hname, Option.bind_eq_bind, Option.bind_some]
  simp only
  rw [skipSpace_cons _ (by decide)]
  simp only [if_true]
  rw [hv, Option.bind_eq_bind, Option.bind_some]
  simp only
  rw [skipSpace_cons _ hc, String.ofList_toList]

theorem parseFields_marshal (ih : Reads fuel) {f : String × Value} {fs : List (String × Value)}
    {texts : List (String × String)} (rest : List Char) (hvalid : validFields (f :: fs) = true)
    (htexts : marshalFields (f :: fs) = some texts)
    (hfuel : 2 * (commas (texts.map fieldText)).length + 2 ≤ fuel + 1) :
    parseFields (fuel + 1) (commas (texts.map fieldText) ++ '}' :: rest) =
      some (f :: fs, rest) := by
  obtain ⟨name, v⟩ := f
  obtain ⟨text, tail, rfl, htext, htail⟩ := marshalFields_cons htexts
  rw [validFields, Bool.and_eq_true] at hvalid
  cases fs with
  | nil =>
    cases htail
    rw [List.map_singleton, commas_singleton, toList_fieldText] at hfuel ⊢
    rw [List.length_append, List.length_cons] at hfuel
    rw [List.append_assoc, List.cons_append]
    obtain ⟨inner, hquote, hname⟩ := parseString_quote name (':' :: (text.toList ++ '}' :: rest))
    have hv := ih.value v text ('}' :: rest) hvalid.1 htext (by omega) (ends_cons (by decide))
    rw [hquote, parseFields_field hname hv (by decide), if_pos rfl]
  | cons g gs =>
    obtain ⟨next, tail, rfl, -, -⟩ := marshalFields_cons htail
    rw [List.map_cons, List.map_cons, commas_cons_cons, ← List.map_cons,
      toList_fieldText] at hfuel ⊢
    rw [List.length_append, List.length_append, List.length_cons, List.length_cons] at hfuel
    rw [List.append_assoc, List.append_assoc, List.cons_append, List.cons_append]
    obtain ⟨inner, hquote, hname⟩ := parseString_quote name (':' :: (text.toList ++
      ',' :: (commas (((g.1, next) :: tail).map fieldText) ++ '}' :: rest)))
    have hv := ih.value v text
      (',' :: (commas (((g.1, next) :: tail).map fieldText) ++ '}' :: rest)) hvalid.1 htext
      (by omega) (ends_cons (by decide))
    have hfs := ih.fields g gs ((g.1, next) :: tail) rest hvalid.2 htail (by omega)
    rw [hquote, parseFields_field hname hv (by decide), if_neg (by decide), if_pos rfl, hfs]
    rfl

theorem parseValue_number {lit : String} {rest : List Char} (h : isNumber lit.toList)
    (hrest : Ends rest) :
    parseValue (fuel + 1) (lit.toList ++ rest) = some (.number lit, rest) := by
  obtain ⟨c, tail, hlit, hc⟩ := isNumber_head h
  obtain ⟨hspace, harray, hobject, hstring, hnull, htrue, hfalse, -⟩ := numberChar_ne hc
  have hread := parseNumber_literal h hrest
  rw [hlit, List.cons_append] at hread ⊢
  rw [parseValue, skipSpace_cons _ hspace]
  simp only [if_neg harray, if_neg hobject, if_neg hstring, if_neg hnull, if_neg htrue,
    if_neg hfalse]
  exact hread

theorem parseValue_array (ih : Reads fuel) {vs : List Value} {texts : List String}
    (rest : List Char) (hvalid : validElems vs = true) (htexts : marshalElems vs = some texts)
    (hfuel : 2 * (commas texts).length + 2 ≤ fuel) :
    parseValue (fuel + 2) ((array texts).toList ++ rest) = some (.array vs, rest) := by
  rw [toList_array, List.cons_append, List.append_assoc, List.singleton_append]
  cases vs with
  | nil =>
    cases htexts
    rfl
  | cons v vs =>
    have hread := ih.elems v vs texts rest hvalid htexts hfuel
    obtain ⟨text, tail, rfl, htext, -⟩ := marshalElems_cons htexts
    rw [validElems, Bool.and_eq_true] at hvalid
    -- The first element does not look like the end of an empty array.
    obtain ⟨c, inner, hhead, hspace, hc⟩ := marshal_head hvalid.1 htext
    obtain ⟨inner, hinner⟩ := commas_head tail (']' :: rest) hhead
    rw [hinner] at hread ⊢
    rw [parseValue, skipSpace_cons _ (by decide)]
    simp only [if_true]
    rw [skipSpace_cons _ hspace, parseArray, if_neg hc, hread, Option.map_some]

theorem parseValue_object (ih : Reads fuel) {fs : List (String × Value)}
    {texts : List (String × String)} (rest : List Char) (hvalid : validFields fs = true)
    (htexts : marshalFields fs = some texts)
    (hfuel : 2 * (commas (texts.map fieldText)).length + 2 ≤ fuel) :
    parseValue (fuel + 2) ((object texts).toList ++ rest) = some (.object fs, rest) := by
  rw [toList_object, List.cons_append, List.append_assoc, List.singleton_append]
  cases fs with
  | nil =>
    cases htexts
    rfl
  | cons f fs =>
    have hread := ih.fields f fs texts rest hvalid htexts hfuel
    obtain ⟨text, tail, rfl, -, -⟩ := marshalFields_cons htexts
    have hhead := toList_fieldText f.1 text
    rw [toList_quote, List.cons_append] at hhead
    obtain ⟨inner, hinner⟩ := commas_head (tail.map fieldText) ('}' :: rest) hhead
    rw [List.map_cons, hinner] at hread ⊢
    rw [parseValue, skipSpace_cons _ (by decide)]
    simp only [if_neg (show ¬ ('{' = '[') by decide), if_true]
    rw [skipSpace_cons _ (by decide), parseObject, if_neg (by decide), hread, Option.map_some]

/-- The induction is on the fuel. An array or an object needs what is read with
    two less, a list what is read with one less. -/
theorem reads (fuel : Nat) : Reads fuel := by
  induction fuel using Nat.strong_induction_on with
  | _ fuel ih =>
    refine ⟨?_, ?_, ?_⟩
    · intro v text rest hvalid htext hfuel hrest
      -- A text has a first character, so there is fuel for two calls.
      obtain ⟨c, tail, hhead, -, -⟩ := marshal_head hvalid htext
      have hlength : 1 ≤ text.toList.length := by
        rw [hhead, List.length_cons]
        omega
      obtain ⟨fuel, rfl⟩ : ∃ n, fuel = n + 2 := ⟨fuel - 2, by omega⟩
      cases v with
      | null =>
        cases htext
        rfl
      | bool b =>
        cases htext
        cases b with
        | true | false => rfl
      | number =>
        cases htext
        exact parseValue_number hvalid hrest
      | formless => exact absurd hvalid Bool.false_ne_true
      | string s =>
        cases htext
        obtain ⟨inner, hquote, hs⟩ := parseString_quote s rest
        rw [hquote, parseValue, skipSpace_cons _ (by decide)]
        simp only [if_neg (show ¬ ('"' = '[') by decide),
          if_neg (show ¬ ('"' = '{') by decide), if_true]
        rw [hs, Option.map_some, String.ofList_toList]
      | array vs =>
        rw [Value.marshal, Option.map_eq_some_iff] at htext
        obtain ⟨texts, htexts, rfl⟩ := htext
        rw [toList_array, List.length_cons, List.length_append, List.length_singleton] at hfuel
        exact parseValue_array (ih fuel (by omega)) rest hvalid htexts (by omega)
      | object fields =>
        rw [Value.marshal, Option.map_eq_some_iff] at htext
        obtain ⟨texts, htexts, rfl⟩ := htext
        rw [toList_object, List.length_cons, List.length_append, List.length_singleton] at hfuel
        exact parseValue_object (ih fuel (by omega)) rest hvalid htexts (by omega)
    · intro v vs texts rest hvalid htexts hfuel
      obtain ⟨fuel, rfl⟩ : ∃ n, fuel = n + 1 := ⟨fuel - 1, by omega⟩
      exact parseElems_marshal (ih fuel (by omega)) rest hvalid htexts hfuel
    · intro f fs texts rest hvalid htexts hfuel
      obtain ⟨fuel, rfl⟩ : ∃ n, fuel = n + 1 := ⟨fuel - 1, by omega⟩
      exact parseFields_marshal (ih fuel (by omega)) rest hvalid htexts hfuel

/-! ### Documents -/

theorem ends_space {space : List Char} (h : space.all isSpace = true) : Ends space := by
  intro c tail htail
  rw [htail, List.all_cons, Bool.and_eq_true] at h
  by_contra hnumber
  rw [Bool.not_eq_false] at hnumber
  rw [(numberChar_ne hnumber).1] at h
  exact Bool.false_ne_true h.1

/-- One document of the grammar, however deep it is. -/
def readDocument (text : String) : Option Value :=
  (parseValue (2 * text.toList.length) text.toList).bind fun p =>
    if (skipSpace p.2).isEmpty then some p.1 else none

/-- A text is a document of its value, with spaces after it or without. -/
theorem readDocument_marshal (space : String) (hvalid : v.valid = true)
    (htext : v.marshal = some text) (hspace : space.toList.all isSpace = true) :
    readDocument (text ++ space) = some v := by
  have hread := (reads (2 * (text ++ space).toList.length)).value v text space.toList hvalid htext
    (by rw [String.toList_append, List.length_append]; omega) (ends_space hspace)
  have hskip : skipSpace space.toList = [] :=
    List.dropWhile_eq_nil_iff.mpr (List.all_eq_true.mp hspace)
  unfold readDocument
  rw [String.toList_append] at hread ⊢
  rw [hread, Option.bind_some, hskip, if_pos List.isEmpty_nil]

/-- The library reads the documents that are not too deep. -/
theorem parse_eq_readDocument (text : String) :
    parse text = (readDocument text).bind fun v =>
      if v.depth ≤ maxNestingDepth then some v else none := by
  unfold parse readDocument
  cases parseValue (2 * text.toList.length) text.toList with
  | none => rfl
  | some p =>
    simp only [Option.bind_some]
    by_cases hspace : (skipSpace p.2).isEmpty = true
    · rw [if_pos hspace, Option.bind_some]
      simp [hspace]
    · rw [if_neg hspace, if_neg (fun h => hspace h.1)]
      rfl

/-- A text is read back as its value, with spaces after it or without. -/
theorem parse_marshal {space : String} (hvalid : v.valid = true) (htext : v.marshal = some text)
    (hdepth : v.depth ≤ maxNestingDepth) (hspace : space.toList.all isSpace = true) :
    parse (text ++ space) = some v := by
  rw [parse_eq_readDocument, readDocument_marshal space hvalid htext hspace, Option.bind_some,
    if_pos hdepth]

/-- The text of a body that is the encoding of one. -/
def textOf (body : Bytes) : Option String :=
  String.fromUTF8? ⟨body.toArray⟩

theorem textOf_utf8 (text : String) : textOf (utf8 text) = some text := by
  have hbytes : (⟨(utf8 text).toArray⟩ : ByteArray) = text.toByteArray := by
    unfold utf8
    rw [Array.toArray_toList]
    rfl
  unfold textOf
  rw [hbytes, String.fromUTF8?, dif_pos text.isValidUTF8]
  rfl

/-- The characters of an encoding are those it encodes. -/
theorem runes_encode {cs : List Char} (fuel : Nat)
    (hfuel : (cs.flatMap String.utf8EncodeChar).length ≤ fuel) :
    runes fuel (cs.flatMap String.utf8EncodeChar) = cs := by
  induction cs generalizing fuel with
  | nil => cases fuel <;> rfl
  | cons c cs ih =>
    rw [List.flatMap_cons] at hfuel ⊢
    obtain ⟨b, rest, hbytes⟩ := List.exists_cons_of_ne_nil
      (List.append_ne_nil_of_left_ne_nil (String.utf8EncodeChar_ne_nil (c := c))
        (cs.flatMap String.utf8EncodeChar))
    have hdecode : (⟨(b :: rest).toArray⟩ : ByteArray).utf8DecodeChar? 0 = some c := by
      have hsplit : (⟨(b :: rest).toArray⟩ : ByteArray) =
          (String.utf8EncodeChar c).toByteArray ++
            (cs.flatMap String.utf8EncodeChar).toByteArray := by
        rw [← List.toByteArray_append, hbytes]
        simp [ByteArray.ext_iff]
      rw [hsplit]
      exact ByteArray.utf8DecodeChar?_utf8EncodeChar_append
    have hdrop : (b :: rest).drop c.utf8Size = cs.flatMap String.utf8EncodeChar := by
      rw [← hbytes, ← String.length_utf8EncodeChar, List.drop_left]
    have hrest : (cs.flatMap String.utf8EncodeChar).length < (b :: rest).length := by
      rw [← hbytes, List.length_append]
      have hpos := List.length_pos_iff.mpr (String.utf8EncodeChar_ne_nil (c := c))
      omega
    rw [hbytes] at hfuel ⊢
    cases fuel with
    | zero => exact absurd hfuel (Nat.not_succ_le_zero _)
    | succ fuel =>
      rw [runes, hdecode]
      simp only [hdrop]
      rw [ih fuel (Nat.le_of_lt_succ (hrest.trans_le hfuel))]

theorem unmarshal_utf8 (text : String) : unmarshal (utf8 text) = parse text := by
  have hbytes : utf8 text = text.toList.flatMap String.utf8EncodeChar := by
    unfold utf8
    rw [String.toUTF8, ← String.utf8Encode_toList, List.utf8Encode]
    simp
  unfold unmarshal
  rw [hbytes, runes_encode _ (Nat.le_refl _), String.ofList_toList]

/-- A body is read back as the value it was written from. -/
theorem unmarshal_marshal (space : String) (hvalid : v.valid = true) (htext : v.marshal = some text)
    (hdepth : v.depth ≤ maxNestingDepth) (hspace : space.toList.all isSpace = true) :
    unmarshal (utf8 (text ++ space)) = some v := by
  rw [unmarshal_utf8]
  exact parse_marshal hvalid htext hdepth hspace

/-! ### Without spaces -/

theorem readDocument_text (hvalid : v.valid = true) (htext : v.marshal = some text) :
    readDocument text = some v := by
  have hread := readDocument_marshal "" hvalid htext rfl
  rw [String.append_empty] at hread
  exact hread

theorem unmarshal_text (hvalid : v.valid = true) (htext : v.marshal = some text)
    (hdepth : v.depth ≤ maxNestingDepth) : unmarshal (utf8 text) = some v := by
  have hread := unmarshal_marshal "" hvalid htext hdepth rfl
  rw [String.append_empty] at hread
  exact hread

end Json

end CoopDB
