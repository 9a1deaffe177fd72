import CoopDB.Core.Json

/-!
# JSON as `encoding/json` Reads It

The other half of the codec: `json.Unmarshal`, and `json.MarshalIndent` as it is
made from `json.Marshal`.

A document is read in two passes here. `parse` follows the grammar and keeps
what it finds, the literal of a number and the order of the fields of an object
among it. What a Go variable then holds depends on its type. An `any` gets what
`decode` says: a number becomes a float64, and an object becomes a map, in which
the last of several fields with one name stays and which the encoder later
writes in the order of its keys. A struct picks its fields by name.

How a float64 is read and printed is left to the library. `GoJson` has the
literal the encoder writes for the float64 a literal stands for, and the texts of
the two kinds of error, which are passed on and never looked at.

Two habits of the library are left out. It matches the names of struct fields
without regard to case, and it replaces bytes that are not UTF-8. The documents
here are written by the same library from structs with the names they are read
with.

## Main definitions

* `Slice`, `stringField`, `intField`, `sliceField`: Struct fields.
-/

namespace CoopDB

namespace Json

/-- The four characters that may stand between tokens. -/
def isSpace (c : Char) : Bool :=
  c = ' ' || c = '\t' || c = '\n' || c = '\r'

/-- The text from its first token on. -/
def skipSpace (text : List Char) : List Char :=
  text.dropWhile isSpace

/-- The value of a hexadecimal digit, in either case. -/
def hexDigit (c : Char) : Option Nat :=
  if '0' ≤ c ∧ c ≤ '9' then some (c.toNat - 48)
  else if 'a' ≤ c ∧ c ≤ 'f' then some (c.toNat - 87)
  else if 'A' ≤ c ∧ c ≤ 'F' then some (c.toNat - 55)
  else none

/-- The code unit of the four digits after `\u`. -/
def hexCode (a b c d : Char) : Option Nat := do
  let a ← hexDigit a
  let b ← hexDigit b
  let c ← hexDigit c
  let d ← hexDigit d
  return 4096 * a + 256 * b + 16 * c + d

/-- What stands for half of a surrogate pair. -/
def replacementChar : Char :=
  Char.ofNat 0xfffd

/-- A code unit on its own: the characters it ends, and the first half of a pair
    if it may be one. -/
def codeUnit (code : Nat) : List Char × Option Nat :=
  if 0xd800 ≤ code ∧ code < 0xdc00 then ([], some code)
  else if 0xdc00 ≤ code ∧ code < 0xe000 then ([replacementChar], none)
  else ([Char.ofNat code], none)

/-- A code unit after a first half, if there is one waiting. -/
def codeUnitAfter : Option Nat → Nat → List Char × Option Nat
  | none, code => codeUnit code
  | some high, code =>
    if 0xdc00 ≤ code ∧ code < 0xe000 then
      ([Char.ofNat (0x10000 + (high - 0xd800) * 0x400 + (code - 0xdc00))], none)
    else (replacementChar :: (codeUnit code).1, (codeUnit code).2)

/-- A first half no second half has followed. -/
def unpaired : Option Nat → List Char
  | none => []
  | some _ => [replacementChar]

/-- The character of a backslash and one letter. -/
def unescape (c : Char) : Option Char :=
  match c with
  | '"' => some '"'
  | '\\' => some '\\'
  | '/' => some '/'
  | 'b' => some (Char.ofNat 0x08)
  | 'f' => some (Char.ofNat 0x0c)
  | 'n' => some '\n'
  | 'r' => some '\r'
  | 't' => some '\t'
  | _ => none

/-- Characters in front of what the rest of a string comes to. -/
def precede (cs : List Char) (p : List Char × List Char) : List Char × List Char :=
  (cs ++ p.1, p.2)

/-- A string after its opening quote, with the text after the closing one. The
    first argument is a first half of a surrogate pair that has been read. -/
def parseString : Option Nat → List Char → Option (List Char × List Char)
  | _, [] => none
  | high, '"' :: rest => some (unpaired high, rest)
  | high, '\\' :: 'u' :: a :: b :: c :: d :: rest =>
    (hexCode a b c d).bind fun code =>
      (parseString (codeUnitAfter high code).2 rest).map (precede (codeUnitAfter high code).1)
  | high, '\\' :: letter :: rest =>
    (unescape letter).bind fun c => (parseString none rest).map (precede (unpaired high ++ [c]))
  | high, c :: rest =>
    -- A lone backslash and the control characters have to be escaped.
    if c = '\\' ∨ c.toNat < 0x20 then none
    else (parseString none rest).map (precede (unpaired high ++ [c]))

/-- A character that can be part of a number. -/
def numberChar (c : Char) : Bool :=
  c.isDigit || c = '-' || c = '+' || c = '.' || c = 'e' || c = 'E'

/-- One digit or more, and nothing else. -/
def isDigits (text : List Char) : Bool :=
  !text.isEmpty && text.all Char.isDigit

/-- The exponent of a number, or nothing. -/
def isExponent : List Char → Bool
  | [] => true
  | c :: '+' :: rest => (c = 'e' || c = 'E') && isDigits rest
  | c :: '-' :: rest => (c = 'e' || c = 'E') && isDigits rest
  | c :: rest => (c = 'e' || c = 'E') && isDigits rest

/-- A number after its integer part. -/
def isFraction : List Char → Bool
  | '.' :: rest =>
    isDigits (rest.takeWhile Char.isDigit) && isExponent (rest.dropWhile Char.isDigit)
  | text => isExponent text

/-- A number without its sign. A zero is not followed by another digit. -/
def isUnsigned : List Char → Bool
  | [] => false
  | c :: rest =>
    if c = '0' then isFraction rest
    else c.isDigit && isFraction (rest.dropWhile Char.isDigit)

/-- A number after its sign, if it has one. -/
def unsigned : List Char → List Char
  | '-' :: rest => rest
  | text => text

/-- A number of the grammar. -/
def isNumber (text : List Char) : Bool :=
  text.all numberChar && isUnsigned (unsigned text)

/-- A number, with the text after it. -/
def parseNumber (text : List Char) : Option (Value × List Char) :=
  if isNumber (text.takeWhile numberChar) then
    some (.number (String.ofList (text.takeWhile numberChar)), text.dropWhile numberChar)
  else none

/-- A fixed word, with the text after it. -/
def parseWord (v : Value) : List Char → List Char → Option (Value × List Char)
  | [], text => some (v, text)
  | _ :: _, [] => none
  | w :: word, c :: text => if w = c then parseWord v word text else none

mutual

/-- A value, with the text after it. Every call uses up fuel, and an array or an
    object takes three calls for its two brackets. -/
def parseValue : Nat → List Char → Option (Value × List Char)
  | 0, _ => none
  | fuel + 1, text =>
    match skipSpace text with
    | [] => none
    | c :: rest =>
      if c = '[' then (parseArray fuel (skipSpace rest)).map fun p => (.array p.1, p.2)
      else if c = '{' then (parseObject fuel (skipSpace rest)).map fun p => (.object p.1, p.2)
      else if c = '"' then
        (parseString none rest).map fun p => (.string (String.ofList p.1), p.2)
      else if c = 'n' then parseWord .null ['u', 'l', 'l'] rest
      else if c = 't' then parseWord (.bool true) ['r', 'u', 'e'] rest
      else if c = 'f' then parseWord (.bool false) ['a', 'l', 's', 'e'] rest
      else parseNumber (c :: rest)

/-- The elements of an array after its opening bracket. -/
def parseArray : Nat → List Char → Option (List Value × List Char)
  | 0, _ => none
  | _ + 1, [] => none
  | fuel + 1, c :: rest => if c = ']' then some ([], rest) else parseElems fuel (c :: rest)

/-- One element or more, up to the closing bracket. -/
def parseElems : Nat → List Char → Option (List Value × List Char)
  | 0, _ => none
  | fuel + 1, text => do
    let (v, rest) ← parseValue fuel text
    match skipSpace rest with
    | [] => none
    | c :: rest =>
      if c = ']' then some ([v], rest)
      else if c = ',' then (parseElems fuel rest).map fun p => (v :: p.1, p.2)
      else none

/-- The fields of an object after its opening brace. -/
def parseObject : Nat → List Char → Option (List (String × Value) × List Char)
  | 0, _ => none
  | _ + 1, [] => none
  | fuel + 1, c :: rest => if c = '}' then some ([], rest) else parseFields fuel (c :: rest)

/-- One field or more, up to the closing brace. -/
def parseFields : Nat → List Char → Option (List (String × Value) × List Char)
  | 0, _ => none
  | fuel + 1, text =>
    match skipSpace text with
    | [] => none
    | c :: rest =>
      if c = '"' then do
        let (name, rest) ← parseString none rest
        match skipSpace rest with
        | [] => none
        | c :: rest =>
          if c = ':' then do
            let (v, rest) ← parseValue fuel rest
            match skipSpace rest with
            | [] => none
            | c :: rest =>
              if c = '}' then some ([(String.ofList name, v)], rest)
              else if c = ',' then
                (parseFields fuel rest).map fun p => ((String.ofList name, v) :: p.1, p.2)
              else none
          else none
      else none

end

mutual

/-- How many arrays and objects lie around the innermost value. -/
def Value.depth : Value → Nat
  | .array vs => 1 + depthElems vs
  | .object fields => 1 + depthFields fields
  | _ => 0

/-- The depth of the deepest element. -/
def depthElems : List Value → Nat
  | [] => 0
  | v :: vs => max v.depth (depthElems vs)

/-- The depth of the deepest field. -/
def depthFields : List (String × Value) → Nat
  | [] => 0
  | (_, v) :: fields => max v.depth (depthFields fields)

end

/-- The depth a document may have. -/
def maxNestingDepth : Nat :=
  10000

/-- One document, with nothing but spaces after it. -/
def parse (text : String) : Option Value :=
  (parseValue (2 * text.toList.length) text.toList).bind fun p =>
    if (skipSpace p.2).isEmpty ∧ p.1.depth ≤ maxNestingDepth then some p.1 else none

/-- The characters of a body. A byte that begins no encoding is read as U+FFFD, and the
    next character begins behind it. The fuel is the number of bytes. -/
def runes : Nat → Bytes → List Char
  | 0, _ => []
  | _ + 1, [] => []
  | fuel + 1, b :: rest =>
    match (⟨(b :: rest).toArray⟩ : ByteArray).utf8DecodeChar? 0 with
    | some c => c :: runes fuel ((b :: rest).drop c.utf8Size)
    | none => '\uFFFD' :: runes fuel rest

/-- The document in a body. Bytes that are not UTF-8 are replaced, as in
    `encoding/json`: a string has U+FFFD in their place, and outside of strings
    neither is read. -/
def unmarshal (body : Bytes) : Option Value :=
  parse (String.ofList (runes body.length body))

/-- A field put into a map, which is listed by its keys. -/
def insertField (name : String) (v : Value) : List (String × Value) → List (String × Value)
  | [] => [(name, v)]
  | f :: fields =>
    if name = f.1 then (name, v) :: fields
    else if name < f.1 then (name, v) :: f :: fields
    else f :: insertField name v fields

/-- The map that is left when the fields have been put into it in order. -/
def mapOf (fields : List (String × Value)) : List (String × Value) :=
  fields.foldl (fun m f => insertField f.1 f.2 m) []

/-- What the library does that is not modelled: the literal that is written for
    the float64 a literal is read as, if it is in range, and the texts of its
    errors. -/
structure GoJson where
  float : String → Option String
  number : ∀ lit out, float lit = some out → isNumber lit.toList ∧ isNumber out.toList
  int64 : ∀ i : Int, -2 ^ 63 ≤ i → i < 2 ^ 63 → (float (toString i)).isSome
  marshalError : Value → String
  unmarshalError : Bytes → String

section Decode

variable (j : GoJson)

mutual

/-- What an `any` holds. -/
def GoJson.decode : Value → Option Value
  | .null => some .null
  | .bool b => some (.bool b)
  | .number lit => (j.float lit).map .number
  | .formless _ => none
  | .string s => some (.string s)
  | .array vs => (GoJson.decodeElems vs).map .array
  | .object fields => (GoJson.decodeFields fields).map fun fields => .object (mapOf fields)

/-- What a slice of `any` holds. -/
def GoJson.decodeElems : List Value → Option (List Value)
  | [] => some []
  | v :: vs => do
    let w ← GoJson.decode v
    let ws ← GoJson.decodeElems vs
    return w :: ws

/-- The values of the fields, before they are put into a map. -/
def GoJson.decodeFields : List (String × Value) → Option (List (String × Value))
  | [] => some []
  | (name, v) :: fields => do
    let w ← GoJson.decode v
    let ws ← GoJson.decodeFields fields
    return (name, w) :: ws

end

/-- What a `map[string]any` holds, `none` inside being the nil map. -/
def GoJson.decodeMap : Value → Option (Option (List (String × Value)))
  | .null => some none
  | .object fields => (j.decodeFields fields).map fun fields => some (mapOf fields)
  | _ => none

end Decode

/-- A Go slice, `none` being nil. -/
abbrev Slice (α : Type) := Option (List α)

/-- The field of a struct, the last one of that name. -/
def field (name : String) (fields : List (String × Value)) : Option Value :=
  fields.reverse.lookup name

/-- A field of type `string`. A field that is missing or null stays empty. -/
def stringField : Option Value → Option String
  | none => some ""
  | some .null => some ""
  | some (.string s) => some s
  | some _ => none

/-- The value of decimal digits. -/
def digitsOf (text : List Char) : Option Nat :=
  if isDigits text then some (Nat.ofDigitChars 10 text 0) else none

/-- The value of a literal that has no fraction and no exponent. -/
def integerOf : List Char → Option Int
  | '-' :: rest => (digitsOf rest).map fun n => -(n : Int)
  | text => (digitsOf text).map Int.ofNat

/-- A field of an integer type. -/
def intField : Option Value → Option Int
  | none => some 0
  | some .null => some 0
  | some (.number lit) =>
    (integerOf lit.toList).filter fun i => decide (-2 ^ 63 ≤ i ∧ i < 2 ^ 63)
  | some _ => none

/-- A field of a slice type, with what its elements are read by. -/
def sliceField {α : Type} (elem : Value → Option α) : Option Value → Option (Slice α)
  | none => some none
  | some .null => some none
  | some (.array vs) => (vs.mapM elem).map some
  | some _ => none

/-- Where the indenting stands: how deep, inside a string, after a backslash in
    one, and right after an opening bracket. -/
structure Indenting where
  depth : Nat
  inString : Bool
  escaped : Bool
  needIndent : Bool

/-- A line break and the indentation of the next line. -/
def newline (depth : Nat) : List Char :=
  '\n' :: List.replicate (2 * depth) ' '

/-- One character of a document outside its strings. -/
def Indenting.punctuate (s : Indenting) (c : Char) : Indenting × List Char :=
  if c = '[' ∨ c = '{' then ({ s with needIndent := true }, [c])
  else if c = ',' then (s, c :: newline s.depth)
  else if c = ':' then (s, [':', ' '])
  else if c = ']' ∨ c = '}' then
    ({ s with depth := s.depth - 1 }, newline (s.depth - 1) ++ [c])
  else ({ s with inString := decide (c = '"') }, [c])

/-- One character of a document. -/
def Indenting.step (s : Indenting) (c : Char) : Indenting × List Char :=
  if s.inString then
    ({ s with inString := s.escaped || decide (c ≠ '"')
              escaped := !s.escaped && decide (c = '\\') }, [c])
  else if s.needIndent then
    -- Brackets with nothing between them stay on one line.
    if c = ']' ∨ c = '}' then ({ s with needIndent := false }, [c])
    else
      let opened := { s with needIndent := false, depth := s.depth + 1 }
      ((opened.punctuate c).1, newline opened.depth ++ (opened.punctuate c).2)
  else s.punctuate c

/-- The document with its line breaks. -/
def indentFrom : Indenting → List Char → List Char
  | _, [] => []
  | s, c :: text => (s.step c).2 ++ indentFrom (s.step c).1 text

/-- `json.Indent` with two spaces, as `json.MarshalIndent` calls it. -/
def indent (text : String) : String :=
  String.ofList (indentFrom { depth := 0, inString := false, escaped := false, needIndent := false }
    text.toList)

end Json

end CoopDB
