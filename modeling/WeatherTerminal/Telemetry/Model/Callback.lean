import Mathlib.Algebra.Order.Ring.Abs
import WeatherTerminal.Common.Block
import WeatherTerminal.Common.Decimal
import WeatherTerminal.Telemetry.Model.Sensors
/-!
# Telemetry — the timer's callback

`timer2_callback` writes the title of the screen on every call, and on
every sixth the message for the cloud. Both texts are made by
`rt_sprintf`, which asks for no size, in an array of a fixed one.

How a float is rounded is not fixed here: `Rounding` is any rounding to
the nearest hundredth, ties whichever way.
-/

namespace WeatherTerminal

namespace Telemetry

/-! ## `rt_sprintf` -/

/-- A rounding of magnitudes to hundredths: to a nearest one, with ties to
either side. -/
structure Rounding where
  hundredths : ℚ → ℕ
  nearest : ∀ x, |(hundredths x : ℚ) - 100 * (|x|)| ≤ 1 / 2

/-- What a conversion prints: a number, a whole number or a string. -/
inductive Arg
  | float (x : ℚ)
  | int (n : ℤ)
  | string (s : List UInt8)

/-- A float under `%.2f`; the sign of one below zero stands also where it
rounds to zero. -/
def printFloat (rounding : Rounding) (x : ℚ) : List UInt8 :=
  Decimal.fixed (decide (x < 0)) 2 (rounding.hundredths x)

/-- A number under `%d`: its sign, and its digits without leading zeros. -/
def printInt (n : ℤ) : List UInt8 := Decimal.sign (decide (n < 0)) ++ Decimal.digits n.natAbs

/-- The text of a format with the conversions `%.2f`, `%d` and `%s`. -/
def format (rounding : Rounding) : List UInt8 → List Arg → List UInt8
  | 0x25 :: 0x2E :: 0x32 :: 0x66 :: fmt, .float x :: args =>
      printFloat rounding x ++ format rounding fmt args
  | 0x25 :: 0x64 :: fmt, .int n :: args => printInt n ++ format rounding fmt args
  | 0x25 :: 0x73 :: fmt, .string s :: args => s ++ format rounding fmt args
  | c :: fmt, args => c :: format rounding fmt args
  | [], _ => []

/-- `rt_sprintf` to the start of an array, with the NUL behind what is
printed. -/
def sprintf {n : ℕ} (rounding : Rounding) (b : Block n) (fmt : List UInt8) (args : List Arg) :
    Block n :=
  b.strcpy 0 (format rounding fmt args)

/-! ## `mqtt_main_publish` -/

/-- What a call meets: the names of the device, whether the topic gets its
block, and what the client answers. -/
structure Client where
  productKey : List UInt8
  deviceName : List UInt8
  topicGranted : Bool
  res : ℤ

/-- What the client is handed, at quality of service 0. -/
structure Publication where
  topic : List UInt8
  payload : List UInt8
deriving DecidableEq

/-- The format of the topic that is published to. -/
def topicFormat : List UInt8 := utf8 "/sys/%s/%s/thing/event/property/post"

/-- `mqtt_main_publish`: its result, and what it hands to the client. -/
def mqttMainPublish {n : ℕ} (rounding : Rounding) (client : Client) (payload : Block n) :
    ℤ × Option Publication :=
  let topicLen :=
    topicFormat.length + client.productKey.length + client.deviceName.length + 1
  if client.topicGranted = false then (-1, none)
  else
    -- `HAL_Snprintf`, which keeps a byte for the NUL
    let topic := (format rounding topicFormat
      [.string client.productKey, .string client.deviceName]).take (topicLen - 1)
    (if client.res < 0 then -1 else 0, some { topic := topic, payload := payload.cstr 0 })

/-! ## The callback -/

/-- What the sensors say during a call. The two halves of the climate come
from a measurement each. -/
structure Readings where
  humi : Aht10Sample
  temp : Aht10Sample
  light : Ap3216cRegs

/-- `count` after a call, the title shown, and where the call publishes the
message and what became of it. -/
structure Call where
  count : ℤ
  buf : Block 40
  payload : Option (Block 100)
  published : Option Publication

/-- The format of the title that the screen shows. -/
def titleFormat : List UInt8 := utf8 "温度:%.2f°C  湿度:%.2f "

/-- The format of the message that is published. -/
def payloadFormat : List UInt8 :=
  utf8 ("\x7b\"params\":\x7b\"CurrentTemperature\": %.2f,\"CurrentHumidity\": %.2f," ++
    "\"LightLux\": %.2f,\"ps_data\": %d\x7d\x7d")

/-- `timer2_callback`, without the lamp it steps at its end: what it shows,
publishes and counts. -/
def timer2Callback (rounding : Rounding) (client : Client) (r : Readings) (count : ℤ) : Call :=
  let humi := readHwHumidity r.humi
  let temp := readHwTemperature r.temp
  let buf := sprintf rounding (Block.filled 40 0) titleFormat [.float temp, .float humi]
  let buf := buf.strcat 0 (utf8 "%")
  if count > 5 then
    let psData := readPsData r.light
    let brightness := readAmbientLight r.light
    let payload := sprintf rounding (Block.filled 100 0) payloadFormat
      [.float temp, .float humi, .float brightness, .int psData]
    { count := 0 + 1, buf := buf, payload := some payload,
      published := (mqttMainPublish rounding client payload).2 }
  else { count := count + 1, buf := buf, payload := none, published := none }

end Telemetry

end WeatherTerminal
