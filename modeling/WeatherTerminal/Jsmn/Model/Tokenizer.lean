import Mathlib.Data.List.Basic
import Mathlib.Data.Int.Notation
/-!
# jsmn — the tokenizer

`jsmn.c`, built with `JSMN_PARENT_LINKS` and without `JSMN_STRICT`. A
parser walks the text byte by byte and fills a token array with one token
for each object, array, string and primitive. The array is the list of
the tokens allocated so far, `toknext` being its length; `-1` is `none`.

The text is the list of bytes from the parser's position to the end of
the block it lies in. `len` may exceed the block: running off the list is
then a read past the block, which the source does not notice
(`Halt.overread`).
-/

namespace WeatherTerminal

namespace Jsmn

/-- `jsmntype_t`: what a token is, `undefined` being what none of them stays.
-/
inductive JsmnType
  | undefined
  | object
  | array
  | string
  | primitive
deriving DecidableEq, Repr

/-- `enum jsmnerr`: why `jsmn_parse` refuses a text. -/
inductive JsmnErr
  /-- Not enough tokens were provided. -/
  | nomem
  /-- Invalid character inside JSON string. -/
  | inval
  /-- The string is not a full JSON packet, more bytes expected. -/
  | part
deriving DecidableEq, Repr

/-- `jsmntok_t`: a token, by its type, where it stands in the text and where
in the tree. -/
structure JsmnTok where
  type : JsmnType
  start : ℕ
  /-- `end`, `none` while an object or array is open. -/
  stop : Option ℕ
  size : ℕ
  parent : Option ℕ
deriving DecidableEq, Repr

/-- `jsmn_parser` with its tokens: where it is, and which token takes the next
one. -/
structure JsmnParser where
  pos : ℕ
  toksuper : Option ℕ
  tokens : List JsmnTok
  count : ℕ
deriving DecidableEq, Repr

/-- Why a parse ends without a count: an error code, a byte read past the
block, or a parent link that leads astray. -/
inductive Halt
  /-- `jsmn_parse` returns an error code. -/
  | err (e : JsmnErr)
  /-- A byte past the block was read. -/
  | overread
  /-- A parent link led out of the token array. -/
  | wild
deriving DecidableEq, Repr

/-! ## Bytes -/

abbrev lbrace : UInt8 := 0x7B
abbrev rbrace : UInt8 := 0x7D
abbrev lbracket : UInt8 := 0x5B
abbrev rbracket : UInt8 := 0x5D
abbrev quote : UInt8 := 0x22
abbrev backslash : UInt8 := 0x5C
abbrev colon : UInt8 := 0x3A
abbrev comma : UInt8 := 0x2C

/-- The white space of the tokenizer: `'\t'`, `'\r'`, `'\n'` and `' '`. -/
def isSpace (c : UInt8) : Bool := c = 0x09 || c = 0x0D || c = 0x0A || c = 0x20

/-- The symbols a backslash may escape: `"`, `/`, `\`, `b`, `f`, `r`, `n`
and `t`. -/
def isEscape (c : UInt8) : Bool :=
  c = quote || c = 0x2F || c = backslash || c = 0x62 || c = 0x66 || c = 0x72 || c = 0x6E ||
    c = 0x74

/-- A hexadecimal digit, in upper or in lower case. -/
def isHex (c : UInt8) : Bool :=
  (48 ≤ c && c ≤ 57) || (65 ≤ c && c ≤ 70) || (97 ≤ c && c ≤ 102)

/-- What ends a primitive, when JSMN_STRICT is off: white space, a colon, a
comma or a closing bracket. -/
def endsPrimitive (c : UInt8) : Bool :=
  c = colon || isSpace c || c = comma || c = rbracket || c = rbrace

/-! ## Scanning -/

/-- Running out of text: `part` where the text ends at `len`, a read past
the block where it does not. -/
def ranOut (beyond : Bool) (e : JsmnErr) : Halt := if beyond then .overread else .err e

/-- `jsmn_parse_string` behind the opening quote: how many bytes stand
before the closing one. `hex` digits of an escape `\uXXXX` are still to
come. -/
def scanString (beyond : Bool) : ℕ → List UInt8 → Except Halt ℕ
  | _, [] => .error (ranOut beyond .part)
  | hex + 1, c :: cs =>
      if c = 0 then .error (.err .part)
      else if isHex c then (scanString beyond hex cs).map (· + 1)
      else .error (.err .inval)
  | 0, c :: cs =>
      if c = 0 then .error (.err .part)
      else if c = quote then .ok 0
      else if c = backslash then
        match cs with
        | [] => .error (ranOut beyond .part)
        | e :: cs =>
            if isEscape e then (scanString beyond 0 cs).map (· + 2)
            else if e = 0x75 then (scanString beyond 4 cs).map (· + 2)
            else .error (.err .inval)
      else (scanString beyond 0 cs).map (· + 1)

/-- `jsmn_parse_primitive`: how many bytes stand before the end of the
primitive. -/
def scanPrimitive (beyond : Bool) : List UInt8 → Except Halt ℕ
  | [] => if beyond then .error .overread else .ok 0
  | c :: cs =>
      if c = 0 then .ok 0
      else if endsPrimitive c then .ok 0
      else if c < 32 || 127 ≤ c then .error (.err .inval)
      else (scanPrimitive beyond cs).map (· + 1)

/-! ## Filling tokens -/

/-- `tokens[toksuper].size++`, where there is a token that takes the next one.
-/
def bumpSize (tokens : List JsmnTok) : Option ℕ → List JsmnTok
  | none => tokens
  | some s => tokens.modify s fun t => { t with size := t.size + 1 }

/-- `jsmn_fill_token`: one token more, a child of `toksuper`, which counts it.
-/
def JsmnParser.add (p : JsmnParser) (type : JsmnType) (start : ℕ) (stop : Option ℕ) :
    JsmnParser :=
  { p with
    tokens := bumpSize p.tokens p.toksuper ++
      [{ type := type, start := start, stop := stop, size := 0, parent := p.toksuper }]
    count := p.count + 1 }

/-- `jsmn_alloc_token` before it. `pool` is `num_tokens`, or `none` for the
null array, which only counts. -/
def JsmnParser.push (p : JsmnParser) (pool : Option ℕ) (type : JsmnType) (start : ℕ)
    (stop : Option ℕ) : Except Halt JsmnParser :=
  match pool with
  | none => .ok { p with count := p.count + 1 }
  | some num =>
      if num ≤ p.tokens.length then .error (.err .nomem) else .ok (p.add type start stop)

/-- The last token becomes `toksuper`, so that it takes what follows. -/
def JsmnParser.enter (p : JsmnParser) : JsmnParser :=
  { p with toksuper := if p.tokens.length = 0 then none else some (p.tokens.length - 1) }

/-- The loop of a closing bracket: from token `i` up the parent links to
the innermost open token, which it closes. The new token array and the
new `toksuper`. -/
def closeFrom (type : JsmnType) (pos : ℕ) (tokens : List JsmnTok) (toksuper : Option ℕ) :
    ℕ → ℕ → Except Halt (List JsmnTok × Option ℕ)
  | 0, _ => .error .wild
  | fuel + 1, i =>
      match tokens[i]? with
      | none => .error .wild
      | some t =>
          if t.stop = none then
            if t.type ≠ type then .error (.err .inval)
            else .ok (tokens.set i { t with stop := some (pos + 1) }, t.parent)
          else
            match t.parent with
            | none =>
                if t.type ≠ type ∨ toksuper = none then .error (.err .inval)
                else .ok (tokens, toksuper)
            | some j => closeFrom type pos tokens toksuper fuel j

/-- A closing bracket: the token it closes is looked for among the open ones.
-/
def JsmnParser.close (p : JsmnParser) (type : JsmnType) : Except Halt JsmnParser :=
  if p.tokens.length < 1 then .error (.err .inval)
  else
    (closeFrom type p.pos p.tokens p.toksuper p.tokens.length (p.tokens.length - 1)).map
      fun (tokens, toksuper) => { p with tokens := tokens, toksuper := toksuper }

/-- A comma leaves the member it ends: a `toksuper` that is neither array
nor object gives way to its parent. -/
def JsmnParser.leave (p : JsmnParser) : JsmnParser :=
  match p.toksuper with
  | none => p
  | some s =>
      match p.tokens[s]? with
      | none => p
      | some t =>
          if t.type ≠ .array ∧ t.type ≠ .object then { p with toksuper := t.parent } else p

/-- The parser `n` bytes further on, its tokens as they were. -/
def JsmnParser.skip (p : JsmnParser) (n : ℕ) : JsmnParser := { p with pos := p.pos + n }

/-! ## The loop -/

/-- One round of the loop at the byte `c`, with `cs` behind it: the parser
afterwards, and how many bytes the round took. -/
def jsmnStep (beyond : Bool) (pool : Option ℕ) (c : UInt8) (cs : List UInt8) (p : JsmnParser) :
    Except Halt (JsmnParser × ℕ) :=
  if c = lbrace ∨ c = lbracket then do
    let p' ← p.push pool (if c = lbrace then .object else .array) p.pos none
    .ok (if pool = none then p' else p'.enter, 1)
  else if c = rbrace ∨ c = rbracket then
    if pool = none then .ok (p, 1)
    else do
      let p' ← p.close (if c = rbrace then .object else .array)
      .ok (p', 1)
  else if c = quote then do
    let n ← scanString beyond 0 cs
    let p' ← p.push pool .string (p.pos + 1) (some (p.pos + 1 + n))
    .ok (p', n + 2)
  else if isSpace c then .ok (p, 1)
  else if c = colon then .ok (p.enter, 1)
  else if c = comma then .ok (p.leave, 1)
  else do
    let n ← scanPrimitive beyond (c :: cs)
    let p' ← p.push pool .primitive p.pos (some (p.pos + n))
    .ok (p', n)

/-- The loop of `jsmn_parse`, over the text still to come. The fuel bounds
the rounds; the text's length is enough. -/
def jsmnLoop (beyond : Bool) (pool : Option ℕ) : ℕ → List UInt8 → JsmnParser →
    Except Halt JsmnParser
  | _, [], p => if beyond then .error .overread else .ok p
  | 0, _ :: _, _ => .error .wild
  | fuel + 1, c :: cs, p =>
      if c = 0 then .ok p
      else do
        let (p', n) ← jsmnStep beyond pool c cs p
        jsmnLoop beyond pool fuel ((c :: cs).drop n) (p'.skip n)

/-- `jsmn_init`: a parser at the start of its text, without any token. -/
def jsmnInit : JsmnParser := { pos := 0, toksuper := none, tokens := [], count := 0 }

/-- `jsmn_parse` over the first `len` bytes of the block `js`: the count it
returns, and the tokens it filled. -/
def jsmnParse (js : List UInt8) (len : ℕ) (pool : Option ℕ) :
    Except Halt (ℕ × List JsmnTok) := do
  let text := js.take len
  let p ← jsmnLoop (js.length < len) pool text.length text jsmnInit
  if p.tokens.any (·.stop = none) then .error (.err .part) else .ok (p.count, p.tokens)

end Jsmn

end WeatherTerminal
