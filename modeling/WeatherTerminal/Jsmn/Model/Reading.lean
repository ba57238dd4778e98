import WeatherTerminal.Jsmn.Forest
import Mathlib.Data.List.Basic
/-!
# jsmn — what a token forest says

The purpose of the lookups of `jsmn_util.c`, stated on the forest and not
on the walk: a key is a string, its value its only child, a member of an
object a key among the object's children, an element of an array one of
the array's children. A token stands for an object where it is one, or is
a key whose value is one; so for an array.
-/

namespace WeatherTerminal

namespace Jsmn

variable (js : List UInt8) (tokens : List JsmnTok)

/-- The children of a token, in the order of the text. -/
def childrenOf (i : ℕ) : List ℕ := tokens.findIdxs (fun t => t.parent = some i) 0

/-- Token `i` is there and has the type `type`. -/
def hasType (type : JsmnType) (i : ℕ) : Bool := tokens[i]?.any (·.type = type)

/-- The value of a key: the one child of a string. -/
def valueOf (k : ℕ) : Option ℕ :=
  match childrenOf tokens k with
  | [v] => if hasType tokens .string k then some v else none
  | _ => none

/-- The object or array, as `type` says, that token `i` stands for. -/
def containerOf (type : JsmnType) (i : ℕ) : Option ℕ :=
  if hasType tokens type i then some i else (valueOf tokens i).filter (hasType tokens type)

/-- The first member of that object under the key `key`. -/
def memberOf (i : ℕ) (key : List UInt8) : Option ℕ :=
  (containerOf tokens .object i).bind fun o =>
    (childrenOf tokens o).find? fun k =>
      tokens[k]?.any fun t => t.type = .string ∧ t.raw js = key

/-- The element of that array at `index`, where there are that many. -/
def elemOf (i index : ℕ) : Option ℕ :=
  (containerOf tokens .array i).bind fun a => (childrenOf tokens a)[index]?

/-- The scalar that is the value of a key, neither an object nor an array. -/
def scalarOf (k : ℕ) : Option JsmnTok :=
  (valueOf tokens k).bind fun v => tokens[v]?.filter JsmnTok.isScalar

/-- Its text, as it stands in the source, escapes and all. -/
def textOf (k : ℕ) : Option (List UInt8) := (scalarOf tokens k).map (·.raw js)

/-! ## Paths -/

/-- A step down a document: to the value under a key, or to an element. -/
inductive Step
  | key (k : List UInt8)
  | elem (index : ℕ)
deriving DecidableEq, Repr

/-- One step of a path from a token: to a member of the object or to an
element of the array. -/
def stepOf (i : ℕ) : Step → Option ℕ
  | .key k => memberOf js tokens i k
  | .elem index => elemOf tokens i index

/-- The token at the end of a path that starts at token `i`. -/
def nodeAt (i : ℕ) (path : List Step) : Option ℕ := path.foldlM (stepOf js tokens) i

/-- The text there, from the root, where every step of the path leads
somewhere. -/
def textAt (path : List Step) : Option (List UInt8) :=
  (nodeAt js tokens 0 path).bind (textOf js tokens)

end Jsmn

end WeatherTerminal
