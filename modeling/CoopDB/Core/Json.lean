import CoopDB.Core.Basic

/-!
# JSON as `encoding/json` Writes It

The texts the handlers send and store are produced by `json.Marshal`, and two
of the checks in the request path compare their lengths with a limit. So the
encoder is modelled down to its characters: the escapes of a string, `<`, `>`
and `&` among them, the separators, and the fields a struct leaves out.

A value a column can hold is a `Value`. Numbers carry the literal the encoder
writes for them, since nothing here depends on how a float is printed. Some values
of columns have no JSON form: the encoder returns an error for any document that
contains one, and the callers drop that error and go on with no bytes at all.

## Main definitions

* `Formless`: The values without a JSON form.
* `Value`: Decoded values.
* `Value.marshal`: The encoder, `none` where it returns an error.
-/

namespace CoopDB

namespace Json

/-- What a column can hold and the encoder refuses: a float that is NaN or infinite,
    a numeric that is infinite, and a time outside the years 0 to 9999. -/
inductive Formless
  | float
  | numeric
  | year
  deriving DecidableEq

/-- A decoded value, of a column or of a JSON document. -/
inductive Value
  | null
  | bool (b : Bool)
  | number (lit : String)
  | formless (kind : Formless)
  | string (s : String)
  | array (vs : List Value)
  | object (fields : List (String × Value))

/-- One character of a JSON string. -/
def escape (c : Char) : String :=
  match c.toNat with
  | 0x22 => "\\\""
  | 0x5c => "\\\\"
  | 0x08 => "\\b"
  | 0x0c => "\\f"
  | 0x0a => "\\n"
  | 0x0d => "\\r"
  | 0x09 => "\\t"
  -- The encoder keeps its output safe to embed in HTML and in JavaScript.
  | 0x3c => "\\u003c"
  | 0x3e => "\\u003e"
  | 0x26 => "\\u0026"
  | 0x2028 => "\\u2028"
  | 0x2029 => "\\u2029"
  | n =>
    if n < 0x20 then
      "\\u00" ++ String.singleton (Nat.digitChar (n / 16)) ++
        String.singleton (Nat.digitChar (n % 16))
    else String.singleton c

/-- A JSON string. -/
def quote (s : String) : String :=
  "\"" ++ String.join (s.toList.map escape) ++ "\""

/-- A JSON array of texts that are JSON already. -/
def array (elems : List String) : String :=
  "[" ++ ",".intercalate elems ++ "]"

/-- A JSON object of texts that are JSON already. -/
def object (fields : List (String × String)) : String :=
  "\x7b" ++ ",".intercalate (fields.map (fun f => quote f.1 ++ ":" ++ f.2)) ++ "\x7d"

mutual

/-- `json.Marshal`. -/
def Value.marshal : Value → Option String
  | .null => some "null"
  | .bool b => some (if b then "true" else "false")
  | .number lit => some lit
  | .formless _ => none
  | .string s => some (quote s)
  | .array vs => (marshalElems vs).map array
  | .object fields => (marshalFields fields).map object

/-- The elements of an array, if every one of them has a JSON form. -/
def marshalElems : List Value → Option (List String)
  | [] => some []
  | v :: vs => do
    let s ← v.marshal
    let ss ← marshalElems vs
    return s :: ss

/-- The fields of an object, if every one of them has a JSON form. -/
def marshalFields : List (String × Value) → Option (List (String × String))
  | [] => some []
  | (name, v) :: fields => do
    let s ← v.marshal
    let ss ← marshalFields fields
    return (name, s) :: ss

end

end Json

end CoopDB
