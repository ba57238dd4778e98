import WeatherTerminal.Common.Heap
import WeatherTerminal.Jsmn.Model.Reading
import WeatherTerminal.Jsmn.Model.Walk
/-!
# MQTT — the LED command

`mqtt_recv_handle`, and what a message is to do to the LEDs. The client
library puts a NUL behind the payload before it hands it over, so what the
handler copies is the payload up to its first NUL.
-/

namespace WeatherTerminal

namespace Mqtt

open Jsmn

/-- What a pin is set to: `PIN_LOW`, which switches an LED on, or `PIN_HIGH`.
-/
inductive Pin
  | low
  | high
deriving DecidableEq, Repr

/-- The two LEDs of the board, by the pins `GPIO_LED_R` and `GPIO_LED_B` they
hang on. -/
structure Leds where
  r : Pin
  b : Pin
deriving DecidableEq, Repr

/-- What a call of `mqtt_recv_handle` meets: a payload, and whether its two
allocations are granted. -/
structure Message where
  payload : List UInt8
  /-- The copy of the payload is granted. -/
  copyGranted : Bool
  /-- The token array is granted. -/
  tokensGranted : Bool
deriving DecidableEq, Repr

/-- The copy of the payload, a byte larger: cleared, then filled by
`rt_strcpy` up to the first NUL. -/
def Message.copy (m : Message) : Block (m.payload.length + 1) :=
  (Block.filled (m.payload.length + 1) 0).strcpy 0 (cstrOf m.payload)

/-- The strings at `params.LEDSwitch_R` and at `params.LEDSwitch_B`, in this
order, null for what is not there. -/
def ledLookups {n : ℕ} (tokens : Option (List JsmnTok)) (root : Option JsmnItem) :
    Walk n (Option ℕ × Option ℕ) := do
  let params ← getObjectItem tokens root (utf8 "params")
  let ledR ← getMemberString tokens params (utf8 "LEDSwitch_R")
  let ledB ← getMemberString tokens params (utf8 "LEDSwitch_B")
  return (ledR, ledB)

/-- What a string does to a pin, `none` being null: "1" switches the LED on,
any other string off. -/
def switchLed (pin : Pin) : Option (List UInt8) → Pin
  | none => pin
  | some s => if s = utf8 "1" then .low else .high

/-- `mqtt_recv_handle`: the pins and the heap it leaves, or the null pointer
it runs into. -/
def mqttRecvHandle (m : Message) (leds : Leds) (heap : Heap) : Except Fault (Leds × Heap) :=
  match heap.malloc m.copyGranted with
  | (none, _) => .error .nullCopy
  | (some buffer, heap) => do
      let (tokens, heap) := heap.malloc m.tokensGranted
      let (len, filled) ← tokensLen m.copy.bytes (m.payload.length + 1) tokens.isSome
      -- the early return frees neither block
      if len ≤ 0 then .ok (leds, heap)
      else
        let ((ledR, ledB), js) ← ledLookups (tokens.map fun _ => filled)
          (some (jsmnItemInit 0 0 len)) m.copy
        let leds : Leds := ⟨switchLed leds.r (ledR.map js.cstr), switchLed leds.b (ledB.map js.cstr)⟩
        let heap ← heap.free tokens
        let heap ← heap.free (some buffer)
        .ok (leds, heap)

/-- The messages of a run, one after the other, from some pins and a heap. -/
def mqttRecvHandles (ms : List Message) (leds : Leds) (heap : Heap) : Except Fault (Leds × Heap) :=
  ms.foldlM (fun (s : Leds × Heap) m => mqttRecvHandle m s.1 s.2) (leds, heap)

/-! ## What a message is to do -/

/-- The object that is the member `params` of the object a text starts
with. -/
def paramsOf (text : List UInt8) (tokens : List JsmnTok) : Option ℕ :=
  if hasType tokens .object 0 then
    (memberOf text tokens 0 (utf8 "params")).bind fun k =>
      (valueOf tokens k).filter (hasType tokens .object)
  else none

/-- The text of a member of it, where its value is a scalar. -/
def memberText (text : List UInt8) (tokens : List JsmnTok) (params : ℕ) (key : List UInt8) :
    Option (List UInt8) :=
  (memberOf text tokens params key).bind (textOf text tokens)

/-- **The rule for a message**: each LED follows the member named after
it, and stays as it is where there is none. -/
def ledRule (payload : List UInt8) (leds : Leds) : Leds :=
  let text := cstrOf payload
  match jsmnParse text text.length (some numTokens) with
  | .error _ => leds
  | .ok (_, tokens) =>
      match paramsOf text tokens with
      | none => leds
      | some params =>
          ⟨switchLed leds.r (memberText text tokens params (utf8 "LEDSwitch_R")),
            switchLed leds.b (memberText text tokens params (utf8 "LEDSwitch_B"))⟩

end Mqtt

end WeatherTerminal
