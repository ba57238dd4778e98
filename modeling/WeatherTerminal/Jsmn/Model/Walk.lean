import WeatherTerminal.Jsmn.Model.Item
/-!
# jsmn — parsing and lookups in a buffer

The functions as their callers use them: a parse into an array of 150
tokens that may not have been granted, and lookups one after the other on
one buffer, which `JSMN_GetValueString` writes to.
-/

namespace WeatherTerminal

namespace Jsmn

variable {n : ℕ}

/-- The values of `JSMN_ERROR_NOMEM`, `JSMN_ERROR_INVAL` and
`JSMN_ERROR_PART`. -/
def JsmnErr.code : JsmnErr → ℤ
  | .nomem => -1
  | .inval => -2
  | .part => -3

/-- `sizeof(tokens)` in tokens: how many the code provides room for. -/
abbrev numTokens : ℕ := 150

/-- `tokens_len` and the tokens: `jsmn_parse` into the array, where one is
granted. -/
def tokensLen (js : List UInt8) (len : ℕ) (granted : Bool) : Except Fault (ℤ × List JsmnTok) :=
  match jsmnParse js len (if granted then some numTokens else none) with
  | .ok (count, filled) => .ok (count, filled)
  | .error (.err e) => .ok (e.code, [])
  | .error .overread => .error .overread
  | .error .wild => .error .wildToken

/-- A computation on the buffer, which it may change or run into a fault over.
-/
abbrev Walk (n : ℕ) (α : Type) : Type := StateT (Block n) (Except Fault) α

/-- `JSMN_GetObjectItem` as such a computation, the buffer as it was. -/
def getObjectItem (tokens : Option (List JsmnTok)) (object : Option JsmnItem)
    (key : List UInt8) : Walk n (Option JsmnItem) :=
  fun js => (jsmnGetObjectItem js.bytes tokens object key).map fun item => (item, js)

/-- `JSMN_GetArrayItem` as such a computation, the buffer as it was. -/
def getArrayItem (tokens : Option (List JsmnTok)) (array : Option JsmnItem) (index : ℕ) :
    Walk n (Option JsmnItem) :=
  fun js => (jsmnGetArrayItem tokens array index).map fun item => (item, js)

/-- `JSMN_GetValueString` as such a computation, which puts a NUL into the
buffer. -/
def getValueString (tokens : Option (List JsmnTok)) (item : Option JsmnItem) :
    Walk n (Option ℕ) :=
  fun js => (jsmnGetValueString js tokens item).map fun (js, s) => (s, js)

/-- A member and its string, the pair of calls the callers repeat. -/
def getMemberString (tokens : Option (List JsmnTok)) (object : Option JsmnItem)
    (key : List UInt8) : Walk n (Option ℕ) := do
  let item ← getObjectItem tokens object key
  getValueString tokens item

end Jsmn

end WeatherTerminal
