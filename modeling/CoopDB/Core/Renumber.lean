import CoopDB.Core.Basic

/-!
# Several Statements in One

`TransactionBuilder` of `clients/python/src/agentcoopdb/client.py`, which sends
several statements as one: all but the last become queries of a `WITH` clause, and
the parameter lists are put one behind the other. `_renumber` gives the
placeholders of each statement new numbers, so that they do not collide.

`_renumber` walks over the text character by character and knows nothing of
quotes or comments. A dollar sign followed by a digit starts a placeholder. What a
digit is, `str.isdigit` says, and `int` reads the run: it raises `ValueError` for
a digit that is no decimal digit, such as a superscript, and for a run longer than
`sys.get_int_max_str_digits()`. Both depend on the version of Unicode and on the
interpreter, so `PyDigits` is a parameter, with what holds of ASCII in all of
them.

The new number of a placeholder is the next free one when its number is met for
the first time, and the same one from then on.

## Main definitions

* `Statement`, `Commit`, `ctes`, `TransactionBuilder.commit`: The builder.
-/

namespace CoopDB

/-- What Python says of the digits of Unicode: `str.isdigit`, the value `int`
    gives a character, if it takes it, and how many digits `int` converts, `0`
    being any number. -/
structure PyDigits where
  isdigit : Char → Bool
  decimal : Char → Option Nat
  maxStrDigits : Nat
  isdigit_ascii : ∀ c : Char, c.toNat < 128 → isdigit c = c.isDigit
  decimal_ascii : ∀ c : Char, c.isDigit = true → decimal c = some (c.toNat - 48)

/-- `int` of a run of digits, `none` where it raises `ValueError`. -/
def PyDigits.int (py : PyDigits) (run : List Char) : Option Nat :=
  if py.maxStrDigits ≠ 0 ∧ py.maxStrDigits < run.length then none
  else (run.mapM py.decimal).map fun ds => ds.foldl (fun n d => 10 * n + d) 0

/-- What one turn of the loop uses up of the text, and what it appends to the
    output. -/
structure Piece where
  source : List Char
  output : List Char
  deriving DecidableEq, Repr

/-- `next_idx` and `placeholders`. -/
structure Numbering where
  nextIdx : Int
  placeholders : List (Nat × Int)

/-- The new number of a placeholder. -/
def Numbering.number (s : Numbering) (n : Nat) : Int × Numbering :=
  match s.placeholders.lookup n with
  | some m => (m, s)
  | none => (s.nextIdx + 1,
      { nextIdx := s.nextIdx + 1, placeholders := (n, s.nextIdx + 1) :: s.placeholders })

/-- A dollar sign and its new number, as they are formatted. -/
def dollar (m : Int) : List Char :=
  '$' :: (toString m).toList

/-- The loop of `_renumber`. Every turn uses up a character at least, so the
    length of the text is fuel enough. -/
def renumberLoop (py : PyDigits) : Nat → List Char → Numbering → Option (List Piece × Numbering)
  | 0, _, s => some ([], s)
  | _ + 1, [], s => some ([], s)
  | fuel + 1, c :: rest, s =>
    if c = '$' ∧ rest.head?.any py.isdigit = true then do
      let n ← py.int (rest.takeWhile py.isdigit)
      let (pieces, s') ← renumberLoop py fuel (rest.dropWhile py.isdigit) (s.number n).2
      return ({ source := c :: rest.takeWhile py.isdigit
                output := dollar (s.number n).1 } :: pieces, s')
    else do
      let (pieces, s') ← renumberLoop py fuel rest s
      return ({ source := [c], output := [c] } :: pieces, s')

/-- `_renumber`, `none` where it raises. -/
def renumber (py : PyDigits) (sql : String) (start : Int) : Option (String × Int) :=
  (renumberLoop py sql.toList.length sql.toList { nextIdx := start, placeholders := [] }).map
    fun p => (String.ofList (p.1.flatMap Piece.output), p.2.nextIdx)

/-- A statement with its parameters. -/
structure Statement (α : Type) where
  sql : String
  params : List α
  deriving DecidableEq, Repr

/-- What `commit` comes to: nothing, a call of `client.execute`, or an
    exception. -/
inductive Commit (α : Type)
  | nothing
  | executes (s : Statement α)
  | raises
  deriving DecidableEq, Repr

/-- A statement that could be built is executed. -/
def Commit.of {α : Type} : Option (Statement α) → Commit α
  | none => .raises
  | some s => .executes s

/-- The loop over all statements but the last, with the queries of the `WITH`
    clause, the parameters and the last number given. -/
def ctes {α : Type} (py : PyDigits) : Nat → Int → List (Statement α) →
    Option (List String × List α × Int)
  | _, idx, [] => some ([], [], idx)
  | i, idx, s :: rest => do
    let (renumbered, idx') ← renumber py s.sql idx
    let (queries, params, last) ← ctes py (i + 1) idx' rest
    return (("_agentcoopdb_w" ++ toString i ++ " AS (" ++ renumbered ++ ")") :: queries,
      s.params ++ params, last)

/-- The one statement for several. -/
def combined {α : Type} (py : PyDigits) (init : List (Statement α)) (last : Statement α) :
    Option (Statement α) := do
  let (queries, params, idx) ← ctes py 0 0 init
  let (renumbered, _) ← renumber py last.sql idx
  return { sql := "WITH " ++ ", ".intercalate queries ++ " " ++ renumbered
           params := params ++ last.params }

/-- `TransactionBuilder.commit`. -/
def TransactionBuilder.commit {α : Type} (py : PyDigits) : List (Statement α) → Commit α
  | [] => .nothing
  | [s] => .executes s
  | s :: t :: rest => .of (combined py ((s :: t :: rest).dropLast) ((t :: rest).getLastD t))

/-- The first of the ten digits of each script, as Unicode 14 has them. -/
def decimalZeros : List Nat :=
  [0x30, 0x660, 0x6f0, 0x7c0, 0x966, 0x9e6, 0xa66, 0xae6, 0xb66, 0xbe6, 0xc66, 0xce6, 0xd66,
    0xde6, 0xe50, 0xed0, 0xf20, 0x1040, 0x1090, 0x17e0, 0x1810, 0x1946, 0x19d0, 0x1a80, 0x1a90,
    0x1b50, 0x1bb0, 0x1c40, 0x1c50, 0xa620, 0xa8d0, 0xa900, 0xa9d0, 0xa9f0, 0xaa50, 0xabf0,
    0xff10, 0x104a0, 0x10d30, 0x11066, 0x110f0, 0x11136, 0x111d0, 0x112f0, 0x11450, 0x114d0,
    0x11650, 0x116c0, 0x11730, 0x118e0, 0x11950, 0x11c50, 0x11d50, 0x11da0, 0x16a60, 0x16ac0,
    0x16b50, 0x1d7ce, 0x1d7d8, 0x1d7e2, 0x1d7ec, 0x1d7f6, 0x1e140, 0x1e2f0, 0x1e950, 0x1fbf0]

/-- The digits that are no decimal digits, superscripts and circled ones among
    them, from the first to the last of each range. -/
def otherDigits : List (Nat × Nat) :=
  [(0xb2, 0xb3), (0xb9, 0xb9), (0x1369, 0x1371), (0x19da, 0x19da), (0x2070, 0x2070),
    (0x2074, 0x2079), (0x2080, 0x2089), (0x2460, 0x2468), (0x2474, 0x247c), (0x2488, 0x2490),
    (0x24ea, 0x24ea), (0x24f5, 0x24fd), (0x24ff, 0x24ff), (0x2776, 0x277e), (0x2780, 0x2788),
    (0x278a, 0x2792), (0x10a40, 0x10a43), (0x10e60, 0x10e68), (0x11052, 0x1105a),
    (0x1f100, 0x1f10a)]

/-- The zero of the script a decimal digit belongs to. -/
def zeroOf (c : Char) : Option Nat :=
  decimalZeros.find? fun first => decide (first ≤ c.toNat ∧ c.toNat < first + 10)

/-- `str.isdigit` of one character. -/
def isdigitOf (c : Char) : Bool :=
  (zeroOf c).isSome || otherDigits.any fun range => decide (range.1 ≤ c.toNat ∧ c.toNat ≤ range.2)

theorem isDigit_iff_toNat (c : Char) : c.isDigit = true ↔ 48 ≤ c.toNat ∧ c.toNat ≤ 57 := by
  simp only [Char.isDigit, ge_iff_le, Bool.and_eq_true, decide_eq_true_eq, UInt32.le_iff_toNat_le]
  exact Iff.rfl

/-- The tables agree with ASCII below 128. -/
theorem isdigitOf_ascii (c : Char) (h : c.toNat < 128) : isdigitOf c = c.isDigit := by
  have htable : ∀ n, n < 128 →
      ((decimalZeros.find? fun first => decide (first ≤ n ∧ n < first + 10)).isSome ||
        otherDigits.any fun range => decide (range.1 ≤ n ∧ n ≤ range.2))
      = decide (48 ≤ n ∧ n ≤ 57) := by decide +kernel
  unfold isdigitOf zeroOf
  rw [htable c.toNat h, Bool.eq_iff_iff, decide_eq_true_iff, isDigit_iff_toNat]

theorem zeroOf_ascii (c : Char) (h : c.isDigit = true) : zeroOf c = some 48 := by
  have hrange := (isDigit_iff_toNat c).mp h
  unfold zeroOf decimalZeros
  rw [List.find?_cons_of_pos]
  exact decide_eq_true ⟨hrange.1, by omega⟩

/-- CPython 3.11 with its default limit. -/
def cpython311 : PyDigits :=
  { isdigit := isdigitOf
    decimal := fun c => (zeroOf c).map (c.toNat - ·)
    maxStrDigits := 4300
    isdigit_ascii := isdigitOf_ascii
    decimal_ascii := fun c h => by rw [zeroOf_ascii c h, Option.map_some] }

end CoopDB
