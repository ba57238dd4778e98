import WeatherTerminal.Common.Block
import WeatherTerminal.Common.Fault
import WeatherTerminal.Jsmn.Model.Tokenizer
/-!
# jsmn — looking items up

`jsmn_util.c`. An item is a pointer into the token array with the absolute
index of the token it points to and the number of tokens left behind it.
`Option JsmnItem` is an item variable: `none` until a lookup fills it, and
no lookup that fails does. The token array is `none` where the pointer to
it is null.
-/

namespace WeatherTerminal

namespace Jsmn

/-- `jsmn_item_t`: a place in the token array, and how many tokens are left
behind it. -/
structure JsmnItem where
  /-- `t`, as an offset into the token array. -/
  t : ℕ
  index : ℕ
  leftNum : ℤ
deriving DecidableEq, Repr

/-- `JSMN_ItemInit`: the item of a token among the tokens of its array. -/
def jsmnItemInit (t index : ℕ) (tokensLen : ℤ) : JsmnItem :=
  { t := t, index := index, leftNum := tokensLen - index - 1 }

/-- Dereferencing a token pointer, a fault where it leads out of the array. -/
def tokAt (tokens : Option (List JsmnTok)) (i : ℕ) : Except Fault JsmnTok :=
  match tokens with
  | none => .error .nullTokens
  | some ts => match ts[i]? with
    | none => .error .wildToken
    | some t => .ok t

/-- Reading an item variable, a fault where no call has filled it. -/
def readItem : Option JsmnItem → Except Fault JsmnItem
  | none => .error .unfilledItem
  | some item => .ok item

/-- `json_token_streq`: the text of a token is a string, of the same length
and bytes. -/
def jsonTokenStreq (js : List UInt8) (t : JsmnTok) (s : List UInt8) : Bool :=
  let len := t.stop.getD 0 - t.start
  strncmpEq len (js.drop t.start) (s ++ [0]) && decide (s.length = len)

/-- The loop of `JSMN_GetObjectItem`: `n` tokens from the `i`-th behind the
object on. -/
def findKey (js : List UInt8) (tokens : Option (List JsmnTok)) (key : List UInt8)
    (ob : JsmnItem) : ℕ → ℕ → Except Fault (Option JsmnItem)
  | 0, _ => .ok none
  | n + 1, i => do
      let t ← tokAt tokens (ob.t + i)
      if t.type = .string ∧ t.parent = some ob.index ∧ jsonTokenStreq js t key then
        .ok (some { t := ob.t + i, index := ob.index + i, leftNum := ob.leftNum - i })
      else findKey js tokens key ob n (i + 1)

/-- The container an item stands for: the object or array itself, or the
one that is the value of a key. The first half of `JSMN_GetObjectItem` and
of `JSMN_GetArraySize`. -/
def containerItem (tokens : Option (List JsmnTok)) (type : JsmnType) (item : JsmnItem) :
    Except Fault (Option JsmnItem) := do
  let t ← tokAt tokens item.t
  if t.type = type then .ok (some item)
  else if t.type ≠ .string ∨ t.size ≠ 1 ∨ item.leftNum ≤ 0 then .ok none
  else
    let t' ← tokAt tokens (item.t + 1)
    if t'.type ≠ type ∨ t'.parent ≠ some item.index then .ok none
    else .ok (some { t := item.t + 1, index := item.index + 1, leftNum := item.leftNum - 1 })

/-- `JSMN_GetObjectItem`: what it leaves in `*item`, `none` being the null
token. -/
def jsmnGetObjectItem (js : List UInt8) (tokens : Option (List JsmnTok))
    (object : Option JsmnItem) (key : List UInt8) : Except Fault (Option JsmnItem) := do
  let object ← readItem object
  match ← containerItem tokens .object object with
  | none => .ok none
  | some ob => if ob.leftNum ≤ 0 then .ok none else findKey js tokens key ob ob.leftNum.toNat 1

/-- `JSMN_GetString`: the text with its terminator written, and the offset
of the string, `none` being null. -/
def jsmnGetString {n : ℕ} (js : Block n) (tokens : Option (List JsmnTok)) (item : JsmnItem) :
    Except Fault (Block n × Option ℕ) := do
  let t ← tokAt tokens item.t
  if t.type ≠ .string ∧ t.type ≠ .primitive then .ok (js, none)
  else .ok (js.store (t.stop.getD 0) 0, some t.start)

/-- `JSMN_GetValueString`: the buffer with a NUL behind the value, and the
pointer to it. -/
def jsmnGetValueString {n : ℕ} (js : Block n) (tokens : Option (List JsmnTok))
    (item : Option JsmnItem) : Except Fault (Block n × Option ℕ) := do
  let item ← readItem item
  let t ← tokAt tokens item.t
  if t.type ≠ .string ∨ t.size ≠ 1 ∨ item.leftNum ≤ 0 then .ok (js, none)
  else
    jsmnGetString js tokens
      { t := item.t + 1, index := item.index + 1, leftNum := item.leftNum - 1 }

/-- `JSMN_GetArraySize`, `none` being the `-1` of an item that is no array. -/
def jsmnGetArraySize (tokens : Option (List JsmnTok)) (array : JsmnItem) :
    Except Fault (Option ℕ) := do
  match ← containerItem tokens .array array with
  | none => .ok none
  | some ar => do
      let t ← tokAt tokens ar.t
      .ok (some t.size)

/-- The loop of `JSMN_GetArrayItem`, over the tokens behind the array. -/
def findElem (tokens : Option (List JsmnTok)) (ar : JsmnItem) :
    ℕ → ℕ → ℕ → Except Fault (Option JsmnItem)
  | 0, _, _ => .ok none
  | n + 1, i, index => do
      let t ← tokAt tokens (ar.t + i)
      if t.parent = some ar.index then
        if 0 < index then findElem tokens ar n (i + 1) (index - 1)
        else .ok (some { t := ar.t + i, index := ar.index + i, leftNum := ar.leftNum - i })
      else findElem tokens ar n (i + 1) index

/-- `JSMN_GetArrayItem`: what it leaves in `*item`, `none` being the null
token. -/
def jsmnGetArrayItem (tokens : Option (List JsmnTok)) (array : Option JsmnItem) (index : ℕ) :
    Except Fault (Option JsmnItem) := do
  let array ← readItem array
  match ← jsmnGetArraySize tokens array with
  | none => .ok none
  | some size =>
      if size ≤ index then .ok none
      else
        let t ← tokAt tokens array.t
        let ar := if t.type = .array then array
          else { t := array.t + 1, index := array.index + 1, leftNum := array.leftNum - 1 }
        findElem tokens ar ar.leftNum.toNat 1 index

end Jsmn

end WeatherTerminal
