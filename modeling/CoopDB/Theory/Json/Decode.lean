import CoopDB.Theory.Json.RoundTrip

/-!
# What Variables Hold

The values that `json.Unmarshal` leaves in a variable of type `any`, and the
literals of integers.

## Theorems

* `valid_of_decode`, `decode_valid`: What can be read into an `any` is valid, before and
  after, so that it has a text.
* `integerOf_toString`, `isNumber_toString`: The literal of an integer is a number, and is
  read as the integer.
-/

namespace CoopDB

namespace Json

section Decode

variable (j : GoJson)

theorem decodeElems_cons {v : Value} {vs ws : List Value} (h : j.decodeElems (v :: vs) = some ws) :
    ∃ w tail, ws = w :: tail ∧ j.decode v = some w ∧ j.decodeElems vs = some tail := by
  rw [GoJson.decodeElems, Option.bind_eq_bind, Option.bind_eq_some_iff] at h
  obtain ⟨w, hw, h⟩ := h
  rw [Option.bind_eq_bind, Option.bind_eq_some_iff] at h
  obtain ⟨tail, htail, h⟩ := h
  exact ⟨w, tail, (Option.some.inj h).symm, hw, htail⟩

theorem decodeFields_cons {name : String} {v : Value} {fields ws : List (String × Value)}
    (h : j.decodeFields ((name, v) :: fields) = some ws) :
    ∃ w tail, ws = (name, w) :: tail ∧ j.decode v = some w ∧ j.decodeFields fields = some tail := by
  rw [GoJson.decodeFields, Option.bind_eq_bind, Option.bind_eq_some_iff] at h
  obtain ⟨w, hw, h⟩ := h
  rw [Option.bind_eq_bind, Option.bind_eq_some_iff] at h
  obtain ⟨tail, htail, h⟩ := h
  exact ⟨w, tail, (Option.some.inj h).symm, hw, htail⟩

mutual

/-- What can be read into an `any` is valid. -/
theorem valid_of_decode : ∀ v w : Value, j.decode v = some w → v.valid = true
  | .null, _, _ => rfl
  | .bool _, _, _ => rfl
  | .number lit, w, h => by
      rw [GoJson.decode, Option.map_eq_some_iff] at h
      obtain ⟨out, hout, -⟩ := h
      exact (j.number lit out hout).1
  | .formless _, w, h => nomatch h
  | .string _, _, _ => rfl
  | .array vs, w, h => by
      rw [GoJson.decode, Option.map_eq_some_iff] at h
      obtain ⟨ws, hws, -⟩ := h
      exact validElems_of_decode vs ws hws
  | .object fields, w, h => by
      rw [GoJson.decode, Option.map_eq_some_iff] at h
      obtain ⟨ws, hws, -⟩ := h
      exact validFields_of_decode fields ws hws

theorem validElems_of_decode :
    ∀ vs ws : List Value, j.decodeElems vs = some ws → validElems vs = true
  | [], _, _ => rfl
  | v :: vs, ws, h => by
      obtain ⟨w, tail, -, hw, htail⟩ := decodeElems_cons j h
      rw [validElems, valid_of_decode v w hw, validElems_of_decode vs tail htail]
      rfl

theorem validFields_of_decode :
    ∀ fields ws : List (String × Value), j.decodeFields fields = some ws →
      validFields fields = true
  | [], _, _ => rfl
  | (name, v) :: fields, ws, h => by
      obtain ⟨w, tail, -, hw, htail⟩ := decodeFields_cons j h
      rw [validFields, valid_of_decode v w hw, validFields_of_decode fields tail htail]
      rfl

end

theorem validFields_insertField {name : String} {v : Value} {fields : List (String × Value)}
    (hv : v.valid = true) (hfields : validFields fields = true) :
    validFields (insertField name v fields) = true := by
  induction fields with
  | nil => rw [insertField, validFields, hv, hfields]; rfl
  | cons f fields ih =>
    have htail := hfields
    rw [validFields, Bool.and_eq_true] at htail
    rw [insertField]
    by_cases hsame : name = f.1
    · rw [if_pos hsame, validFields, hv, htail.2]
      rfl
    · rw [if_neg hsame]
      by_cases hbefore : name < f.1
      · rw [if_pos hbefore, validFields, hv, hfields]
        rfl
      · rw [if_neg hbefore, validFields, htail.1, ih htail.2]
        rfl

theorem validFields_mapOf {fields : List (String × Value)} (h : validFields fields = true) :
    validFields (mapOf fields) = true := by
  -- The map so far is valid, and so is every field that is still to come.
  have hfold : ∀ (fields m : List (String × Value)), validFields fields = true →
      validFields m = true →
      validFields (fields.foldl (fun m f => insertField f.1 f.2 m) m) = true := by
    intro fields
    induction fields with
    | nil => exact fun m _ hm => hm
    | cons f fields ih =>
      intro m hfields hm
      rw [validFields, Bool.and_eq_true] at hfields
      exact ih _ hfields.2 (validFields_insertField hfields.1 hm)
  exact hfold fields [] h rfl

mutual

/-- What an `any` holds is valid again. -/
theorem decode_valid : ∀ v w : Value, j.decode v = some w → w.valid = true
  | .null, w, h => by cases h; rfl
  | .bool _, w, h => by cases h; rfl
  | .number lit, w, h => by
      rw [GoJson.decode, Option.map_eq_some_iff] at h
      obtain ⟨out, hout, rfl⟩ := h
      exact (j.number lit out hout).2
  | .formless _, w, h => nomatch h
  | .string _, w, h => by cases h; rfl
  | .array vs, w, h => by
      rw [GoJson.decode, Option.map_eq_some_iff] at h
      obtain ⟨ws, hws, rfl⟩ := h
      exact decodeElems_valid vs ws hws
  | .object fields, w, h => by
      rw [GoJson.decode, Option.map_eq_some_iff] at h
      obtain ⟨ws, hws, rfl⟩ := h
      exact validFields_mapOf (decodeFields_valid fields ws hws)

theorem decodeElems_valid :
    ∀ vs ws : List Value, j.decodeElems vs = some ws → validElems ws = true
  | [], ws, h => by cases h; rfl
  | v :: vs, ws, h => by
      obtain ⟨w, tail, rfl, hw, htail⟩ := decodeElems_cons j h
      rw [validElems, decode_valid v w hw, decodeElems_valid vs tail htail]
      rfl

theorem decodeFields_valid :
    ∀ fields ws : List (String × Value), j.decodeFields fields = some ws →
      validFields ws = true
  | [], ws, h => by cases h; rfl
  | (name, v) :: fields, ws, h => by
      obtain ⟨w, tail, rfl, hw, htail⟩ := decodeFields_cons j h
      rw [validFields, decode_valid v w hw, decodeFields_valid fields tail htail]
      rfl

end

theorem decodeElems_eq_mapM (vs : List Value) : j.decodeElems vs = vs.mapM j.decode := by
  induction vs with
  | nil => rfl
  | cons v vs ih => rw [GoJson.decodeElems, List.mapM_cons, ih]

end Decode

/-! ### Integers -/

theorem isDigits_toDigits (n : Nat) : isDigits (Nat.toDigits 10 n) = true := by
  unfold isDigits
  rw [Bool.and_eq_true, Bool.not_eq_true', List.isEmpty_eq_false_iff, List.all_eq_true]
  exact ⟨Nat.toDigits_ne_nil, fun c hc => Nat.isDigit_of_mem_toDigits (by omega) (by omega) hc⟩

theorem digitsOf_toDigits (n : Nat) : digitsOf (Nat.toDigits 10 n) = some n := by
  unfold digitsOf
  rw [if_pos (isDigits_toDigits n), Nat.ofDigitChars_toDigits (by omega) (by omega)]

/-- The first digit of a positive number is not zero. -/
theorem toDigits_head (n : Nat) (hn : 0 < n) :
    ∃ c rest, Nat.toDigits 10 n = c :: rest ∧ c ≠ '0' := by
  induction n using Nat.strong_induction_on with
  | _ n ih =>
    by_cases hsmall : n < 10
    · refine ⟨n.digitChar, [], Nat.toDigits_of_lt_base hsmall, ?_⟩
      have hdigit : ∀ k < 10, 0 < k → k.digitChar ≠ '0' := by decide
      exact hdigit n hsmall hn
    · obtain ⟨c, rest, hhead, hc⟩ := ih (n / 10) (by omega) (by omega)
      refine ⟨c, rest ++ [(n % 10).digitChar], ?_, hc⟩
      rw [Nat.toDigits_of_base_le (by omega) (by omega), hhead, List.cons_append]

theorem isUnsigned_toDigits (n : Nat) : isUnsigned (Nat.toDigits 10 n) = true := by
  by_cases hn : n = 0
  · subst hn
    rfl
  · obtain ⟨c, rest, hhead, hc⟩ := toDigits_head n (by omega)
    have hdigits := isDigits_toDigits n
    unfold isDigits at hdigits
    rw [hhead, Bool.and_eq_true, List.all_cons, Bool.and_eq_true] at hdigits
    rw [hhead, isUnsigned, if_neg hc, hdigits.2.1,
      List.dropWhile_eq_nil_iff.mpr (List.all_eq_true.mp hdigits.2.2)]
    rfl

theorem toList_toString_nat (n : Nat) : (toString (n : Int)).toList = Nat.toDigits 10 n := by
  rw [Int.toString_eq_repr]
  exact Nat.toList_repr

theorem toList_toString_neg (n : Nat) :
    (toString (Int.negSucc n)).toList = '-' :: Nat.toDigits 10 (n + 1) := by
  rw [Int.toString_eq_repr]
  exact (String.toList_append).trans (congrArg ('-' :: ·) Nat.toList_repr)

/-- No digit is a minus sign. -/
theorem toDigits_unsigned (n : Nat) : ∃ c rest, Nat.toDigits 10 n = c :: rest ∧ c ≠ '-' := by
  cases hdigits : Nat.toDigits 10 n with
  | nil => exact absurd hdigits Nat.toDigits_ne_nil
  | cons c rest =>
    refine ⟨c, rest, rfl, ?_⟩
    rintro rfl
    have hdigit := Nat.isDigit_of_mem_toDigits (b := 10) (n := n) (by omega) (by omega)
      (by rw [hdigits]; exact List.mem_cons_self)
    exact absurd hdigit (by decide)

theorem unsigned_of_ne {c : Char} {rest : List Char} (h : c ≠ '-') :
    unsigned (c :: rest) = c :: rest ∧
      integerOf (c :: rest) = (digitsOf (c :: rest)).map Int.ofNat := by
  unfold unsigned integerOf
  constructor
  · split
    · rename_i heq
      rw [List.cons.injEq] at heq
      exact absurd heq.1 h
    · rfl
  · split
    · rename_i heq
      rw [List.cons.injEq] at heq
      exact absurd heq.1 h
    · rfl

/-- The literal of an integer is read back as the integer. -/
theorem integerOf_toString (i : Int) : integerOf (toString i).toList = some i := by
  cases i with
  | ofNat n =>
    obtain ⟨c, rest, hdigits, hc⟩ := toDigits_unsigned n
    have hread := digitsOf_toDigits n
    rw [hdigits] at hread
    rw [Int.ofNat_eq_natCast, toList_toString_nat, hdigits, (unsigned_of_ne hc).2, hread]
    rfl
  | negSucc =>
    rw [toList_toString_neg, integerOf, digitsOf_toDigits]
    rfl

theorem numberChar_of_isDigit {c : Char} (h : c.isDigit = true) : numberChar c = true := by
  unfold numberChar
  rw [h]
  rfl

theorem all_numberChar_toDigits (n : Nat) : (Nat.toDigits 10 n).all numberChar = true := by
  rw [List.all_eq_true]
  intro c hc
  exact numberChar_of_isDigit (Nat.isDigit_of_mem_toDigits (by omega) (by omega) hc)

/-- The literal of an integer is one of the grammar. -/
theorem isNumber_toString (i : Int) : isNumber (toString i).toList = true := by
  unfold isNumber
  cases i with
  | ofNat n =>
    obtain ⟨c, rest, hdigits, hc⟩ := toDigits_unsigned n
    rw [Int.ofNat_eq_natCast, toList_toString_nat, all_numberChar_toDigits, Bool.true_and, hdigits,
      (unsigned_of_ne hc).1, ← hdigits, isUnsigned_toDigits]
  | negSucc =>
    rw [toList_toString_neg, List.all_cons, all_numberChar_toDigits, Bool.and_true, unsigned,
      isUnsigned_toDigits]
    rfl

end Json

end CoopDB
