import WeatherTerminal.Common.Block
import WeatherTerminal.Common.Decimal
import WeatherTerminal.Jsmn.Model.Document
/-!
# jsmn — what JSON asks for

The tokenizer takes any word for a primitive and any byte for a part of a
string. JSON does not: a primitive is a number or one of three literals,
and a string has no control characters. `Value.strict` is this part of the
grammar, and `Document.numberAt` the number a path leads to.
-/

namespace WeatherTerminal

namespace Jsmn

/-- A string of a strict document has no control characters in it. -/
def Text.strict (t : Text) : Bool := t.bytes.all (32 ≤ ·)

/-- A number or a literal, which are the primitives of a strict document. -/
def Word.strict (w : Word) : Bool :=
  (Decimal.read w.bytes).isSome || w.bytes == utf8 "true" || w.bytes == utf8 "false" ||
    w.bytes == utf8 "null"

mutual

/-- A value all of whose strings and primitives are strict. -/
def Value.strict : Value → Bool
  | .string t => t.strict
  | .primitive w => w.strict
  | .object _ ms => ms.strict
  | .array _ es => es.strict

/-- Members whose keys and values are strict. -/
def Members.strict : Members → Bool
  | .nil => true
  | .cons _ key _ _ v _ ms => key.strict && v.strict && ms.strict

/-- Elements that are strict. -/
def Elements.strict : Elements → Bool
  | .nil => true
  | .cons _ v _ es => v.strict && es.strict

end

/-- The number a value is, where it is a primitive that reads as one. -/
def Value.number : Value → Option ℚ
  | .primitive w => Decimal.read w.bytes
  | _ => none

/-- The number at the end of a path, where there is one. -/
def Document.numberAt (d : Document) (path : List Step) : Option ℚ :=
  (d.value.at path).bind Value.number

end Jsmn

end WeatherTerminal
