import WeatherTerminal.Jsmn.Model.Reading
/-!
# jsmn — JSON documents

The grammar the tokenizer is meant for, with its white space kept, so that
a document has one text (`Document.render`) and every well-formed text is
that of a document. Strings and primitives carry the proof that they are
ones. A document says where its tokens have to stand (`Value.tokens`), and
what is under a key or an index (`Value.key`, `Value.elem`).

A `Word` is any run of printable bytes that starts no other value and
meets no delimiter; the numbers and the literals of JSON are words.
-/

namespace WeatherTerminal

namespace Jsmn

/-- The bytes between the quotes of a string, `hex` digits of an escape
`\uXXXX` still to come. -/
def isText : ℕ → List UInt8 → Bool
  | 0, [] => true
  | _ + 1, [] => false
  | hex + 1, c :: cs => isHex c && isText hex cs
  | 0, c :: cs =>
      if c = backslash then
        match cs with
        | [] => false
        | e :: cs => (isEscape e && isText 0 cs) || (e = 0x75 && isText 4 cs)
      else c ≠ 0 && c ≠ quote && isText 0 cs

/-- The bytes of a primitive: those that print and do not end it. -/
def inWord (c : UInt8) : Bool := !endsPrimitive c && 32 ≤ c && c < 127

/-- A primitive: bytes of that kind, of which the first opens neither a
container nor a string. -/
def isWord (bytes : List UInt8) : Bool :=
  bytes.head?.any (fun c => c ≠ lbrace && c ≠ lbracket && c ≠ quote) && bytes.all inWord

/-- White space, any amount of it between two tokens. -/
structure Blank where
  bytes : List UInt8
  valid : bytes.all isSpace = true
deriving DecidableEq

/-- Nothing between two tokens, which is white space too. -/
def noBlank : Blank := { bytes := [], valid := rfl }

/-- A string without its quotes, every escape in it being one the tokenizer
knows. -/
structure Text where
  bytes : List UInt8
  valid : isText 0 bytes = true
deriving DecidableEq

/-- A primitive: a number, a literal, or anything else that the tokenizer
takes for one. -/
structure Word where
  bytes : List UInt8
  valid : isWord bytes = true
deriving DecidableEq

mutual

/-- A JSON value. The blank of an object or array is the one behind its
opening bracket. -/
inductive Value
  | string (t : Text)
  | primitive (w : Word)
  | object (b : Blank) (ms : Members)
  | array (b : Blank) (es : Elements)

/-- The members of an object: blanks stand around the key, and around the
value. -/
inductive Members
  | nil
  | cons (b₁ : Blank) (key : Text) (b₂ b₃ : Blank) (v : Value) (b₄ : Blank) (ms : Members)

/-- The elements of an array, each with the white space around it. -/
inductive Elements
  | nil
  | cons (b₁ : Blank) (v : Value) (b₂ : Blank) (es : Elements)

end

/-- A document: a value with white space around it. -/
structure Document where
  before : Blank
  value : Value
  behind : Blank

/-! ## The text -/

/-- The comma before the next member, where there is one. -/
def Members.sep : Members → List UInt8
  | .nil => []
  | .cons .. => [comma]

/-- The comma before the next element, where there is one. -/
def Elements.sep : Elements → List UInt8
  | .nil => []
  | .cons .. => [comma]

mutual

/-- The text of a value, with its quotes or its brackets. -/
def Value.render : Value → List UInt8
  | .string t => quote :: (t.bytes ++ [quote])
  | .primitive w => w.bytes
  | .object b ms => lbrace :: (b.bytes ++ (ms.render ++ [rbrace]))
  | .array b es => lbracket :: (b.bytes ++ (es.render ++ [rbracket]))

/-- The text of members, between the brackets of their object. -/
def Members.render : Members → List UInt8
  | .nil => []
  | .cons b₁ key b₂ b₃ v b₄ ms =>
      b₁.bytes ++ quote :: (key.bytes ++ quote :: (b₂.bytes ++ colon :: (b₃.bytes ++
        (v.render ++ (b₄.bytes ++ (ms.sep ++ ms.render))))))

/-- The text of elements, between the brackets of their array. -/
def Elements.render : Elements → List UInt8
  | .nil => []
  | .cons b₁ v b₂ es => b₁.bytes ++ (v.render ++ (b₂.bytes ++ (es.sep ++ es.render)))

end

/-- The text of a document. -/
def Document.render (d : Document) : List UInt8 :=
  d.before.bytes ++ (d.value.render ++ d.behind.bytes)

/-! ## The tokens -/

/-- How many members an object has. -/
def Members.count : Members → ℕ
  | .nil => 0
  | .cons _ _ _ _ _ _ ms => ms.count + 1

/-- How many elements an array has. -/
def Elements.count : Elements → ℕ
  | .nil => 0
  | .cons _ _ _ es => es.count + 1

mutual

/-- How many tokens a value takes: one for itself, and those of what is in it.
-/
def Value.size : Value → ℕ
  | .string _ => 1
  | .primitive _ => 1
  | .object _ ms => ms.size + 1
  | .array _ es => es.size + 1

/-- How many tokens members take, one of them for each key. -/
def Members.size : Members → ℕ
  | .nil => 0
  | .cons _ _ _ _ v _ ms => 1 + v.size + ms.size

/-- How many tokens elements take. -/
def Elements.size : Elements → ℕ
  | .nil => 0
  | .cons _ v _ es => v.size + es.size

end

/-- Where the text of a member's key starts, the member being at `pos`. -/
def keyPos (b₁ : Blank) (pos : ℕ) : ℕ := pos + b₁.bytes.length + 1

/-- Where its value starts, behind the key, the colon and the white space
around it. -/
def valuePos (b₁ : Blank) (key : Text) (b₂ b₃ : Blank) (pos : ℕ) : ℕ :=
  keyPos b₁ pos + key.bytes.length + 1 + b₂.bytes.length + 1 + b₃.bytes.length

mutual

/-- The tokens of a value that starts at byte `pos`, from index `i` of the
array on, under the token `parent`. -/
def Value.tokens : Value → ℕ → ℕ → Option ℕ → List JsmnTok
  | .string t, pos, _, parent =>
      [{ type := .string, start := pos + 1, stop := some (pos + 1 + t.bytes.length), size := 0,
         parent := parent }]
  | .primitive w, pos, _, parent =>
      [{ type := .primitive, start := pos, stop := some (pos + w.bytes.length), size := 0,
         parent := parent }]
  | .object b ms, pos, i, parent =>
      { type := .object, start := pos,
        stop := some (pos + 1 + b.bytes.length + ms.render.length + 1),
        size := ms.count, parent := parent } :: ms.tokens (pos + 1 + b.bytes.length) (i + 1) i
  | .array b es, pos, i, parent =>
      { type := .array, start := pos,
        stop := some (pos + 1 + b.bytes.length + es.render.length + 1),
        size := es.count, parent := parent } :: es.tokens (pos + 1 + b.bytes.length) (i + 1) i

/-- Those of the members of the object with token `o`. -/
def Members.tokens : Members → ℕ → ℕ → ℕ → List JsmnTok
  | .nil, _, _, _ => []
  | .cons b₁ key b₂ b₃ v b₄ ms, pos, i, o =>
      { type := .string, start := keyPos b₁ pos,
        stop := some (keyPos b₁ pos + key.bytes.length), size := 1, parent := some o } ::
        (v.tokens (valuePos b₁ key b₂ b₃ pos) (i + 1) (some i) ++
          ms.tokens (valuePos b₁ key b₂ b₃ pos + v.render.length + b₄.bytes.length +
            ms.sep.length) (i + 1 + v.size) o)

/-- The tokens of elements, whose parent is their array. -/
def Elements.tokens : Elements → ℕ → ℕ → ℕ → List JsmnTok
  | .nil, _, _, _ => []
  | .cons b₁ v b₂ es, pos, i, a =>
      v.tokens (pos + b₁.bytes.length) i (some a) ++
        es.tokens (pos + b₁.bytes.length + v.render.length + b₂.bytes.length + es.sep.length)
          (i + v.size) a

end

/-- The tokens of a document, the root being the first of them. -/
def Document.tokens (d : Document) : List JsmnTok :=
  d.value.tokens d.before.bytes.length 0 none

/-! ## What is in it -/

/-- The first member under a key, or none where the object has no such key. -/
def Members.find : Members → List UInt8 → Option Value
  | .nil, _ => none
  | .cons _ k _ _ v _ ms, key => if k.bytes = key then some v else ms.find key

/-- The element at an index, or none where the array is too short. -/
def Elements.get : Elements → ℕ → Option Value
  | .nil, _ => none
  | .cons _ v _ _, 0 => some v
  | .cons _ _ _ es, index + 1 => es.get index

/-- The value under a key of an object, none for a value of another kind. -/
def Value.key : Value → List UInt8 → Option Value
  | .object _ ms, key => ms.find key
  | _, _ => none

/-- The element of an array at an index, none for a value of another kind. -/
def Value.elem : Value → ℕ → Option Value
  | .array _ es, index => es.get index
  | _, _ => none

/-- The raw text of a string or primitive, none for an object or array. -/
def Value.raw : Value → Option (List UInt8)
  | .string t => some t.bytes
  | .primitive w => some w.bytes
  | _ => none

/-- One step of a path: into an object under a key, or into an array at an
index. -/
def Value.step (v : Value) : Step → Option Value
  | .key k => v.key k
  | .elem index => v.elem index

/-- The value at the end of a path, where every step of it leads somewhere. -/
def Value.at (v : Value) (path : List Step) : Option Value := path.foldlM Value.step v

/-- The raw text there, from the root of the document. -/
def Document.textAt (d : Document) (path : List Step) : Option (List UInt8) :=
  (d.value.at path).bind Value.raw

end Jsmn

end WeatherTerminal
