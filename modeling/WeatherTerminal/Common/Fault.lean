import Mathlib.Init
/-!
# Where a run stops

The model follows a C run up to the first operation C gives no meaning to
and the machine no way past: the run then ends in a `Fault`. An access
that misses its block but leaves the control flow alone is not a fault;
`Block.overrun` remembers it and the run goes on.
-/

namespace WeatherTerminal

/-- Why a run does not come to its end: the memory error it runs into first.
-/
inductive Fault
  /-- A read ran past the end of a block. -/
  | overread
  /-- A token outside the filled part of the token array was read. -/
  | wildToken
  /-- A `jsmn_item_t` no lookup had filled was read. -/
  | unfilledItem
  /-- The null token array was dereferenced. -/
  | nullTokens
  /-- The null weather record was dereferenced. -/
  | nullRecord
  /-- A null string was passed to a function of `string.h`. -/
  | nullString
  /-- A null payload copy was dereferenced. -/
  | nullCopy
  /-- A block was freed that was not live. -/
  | badFree
deriving DecidableEq, Repr

/-- The faults that are a use of something absent: an item, a token array,
a record or a string that is not there. -/
def Fault.isAbsentUse : Fault → Bool
  | .unfilledItem | .nullTokens | .nullRecord | .nullString => true
  | _ => false

end WeatherTerminal
