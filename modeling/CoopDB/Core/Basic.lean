import Mathlib.Algebra.Ring.Int.Defs
import Mathlib.Data.List.Basic

/-!
# Shared Carriers

The few types every part of the model speaks: instants and durations, byte
strings, and uuids.

Instants and durations are integers in one fixed unit. The source mixes Go's
nanoseconds with the microseconds of `timestamptz`, but only ever compares
instants and adds durations to them. Durations can be negative: the ones read
from the environment are not checked.

## Main definitions

* `Uuid`: A uuid as the 128 bits it denotes.
-/

namespace CoopDB

/-- An instant, or a duration between two. -/
abbrev Time := Int

/-- A Go byte slice. -/
abbrev Bytes := List UInt8

/-- A uuid, whatever spelling it was parsed from. -/
abbrev Uuid := BitVec 128

/-- The UTF-8 encoding of a text. -/
def utf8 (s : String) : Bytes :=
  s.toUTF8.data.toList

end CoopDB
