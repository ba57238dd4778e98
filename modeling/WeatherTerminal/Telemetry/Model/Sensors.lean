import Mathlib.Data.Rat.Defs
import Mathlib.Data.UInt
/-!
# Telemetry — the sensor drivers

What the drivers make of the bytes on the bus, with exact rationals for
their floats. The transfers themselves are taken to succeed, and so is the
lock.
-/

namespace WeatherTerminal

namespace Telemetry

/-! ## AHT10 -/

/-- A measurement: the status byte, and the six bytes read after it. -/
structure Aht10Sample where
  status : UInt8
  temp : Fin 6 → UInt8

/-- `calibration_enabled`: the bits of the status that say the sensor is
calibrated. -/
def calibrationEnabled (val : UInt8) : Bool := val &&& 0x68 == 0x08

/-- The twenty bits of the temperature, the four high ones from the byte it
shares. -/
def temperatureCode (temp : Fin 6 → UInt8) : ℕ :=
  (temp 3 &&& 0xf).toNat <<< 16 ||| (temp 4).toNat <<< 8 ||| (temp 5).toNat

/-- The twenty bits of the humidity, the four low ones from the byte it
shares. -/
def humidityCode (temp : Fin 6 → UInt8) : ℕ :=
  (temp 1).toNat <<< 12 ||| (temp 2).toNat <<< 4 ||| (temp 3 &&& 0xf0).toNat >>> 4

/-- `read_hw_temperature`: degrees, or -50 where the sensor is not calibrated.
-/
def readHwTemperature (s : Aht10Sample) : ℚ :=
  if calibrationEnabled s.status then temperatureCode s.temp * 200 / 2 ^ 20 - 50 else -50

/-- `read_hw_humidity`: per cent, or 0 where the sensor is not calibrated. -/
def readHwHumidity (s : Aht10Sample) : ℚ :=
  if calibrationEnabled s.status then humidityCode s.temp * 100 / 2 ^ 20 else 0

/-! ## AP3216C -/

/-- The registers of the sensor that a report reads. -/
structure Ap3216cRegs where
  alsConfiguration : UInt8
  alsDataL : UInt8
  alsDataH : UInt8
  psDataL : UInt8
  psDataH : UInt8

/-- `AP3216C_ALS_RANGE_20661`, the widest range of brightness. -/
abbrev alsRange20661 : UInt8 := 0

/-- `AP3216C_ALS_RANGE_5162`, a quarter of it. -/
abbrev alsRange5162 : UInt8 := 1

/-- `AP3216C_ALS_RANGE_1291`, a quarter of that. -/
abbrev alsRange1291 : UInt8 := 2

/-- `AP3216C_ALS_RANGE_323`, the narrowest range of brightness. -/
abbrev alsRange323 : UInt8 := 3

/-- `ap3216c_get_param` of `AP3216C_ALS_RANGE`: what it leaves in `value`,
which is the whole register where the range is none of the four. -/
def getAlsRange (value : UInt8) : UInt8 :=
  let temp := (value &&& 0xff) >>> 4
  if temp = alsRange20661 ∨ temp = alsRange5162 ∨ temp = alsRange1291 ∨ temp = alsRange323 then
    temp
  else value

/-- `read_low_and_high`: sixteen bits from two registers. -/
def readLowAndHigh (low high : UInt8) : ℕ := low.toNat + high.toNat <<< 8

/-- `ap3216c_read_ambient_light`: lux, by the resolution of the range in use.
-/
def readAmbientLight (r : Ap3216cRegs) : ℚ :=
  let readData := readLowAndHigh r.alsDataL r.alsDataH
  let temp := getAlsRange r.alsConfiguration
  if temp = alsRange20661 then 0.35 * readData
  else if temp = alsRange5162 then 0.0788 * readData
  else if temp = alsRange1291 then 0.0197 * readData
  else if temp = alsRange323 then 0.0049 * readData
  else 0

/-- `ap3216c_read_ps_data`: the ten bits of the proximity, from two registers.
-/
def readPsData (r : Ap3216cRegs) : ℕ :=
  let readData := readLowAndHigh r.psDataL r.psDataH
  ((readData &&& 0x000f) + (readData >>> 8 &&& 0x3f) <<< 4) % 2 ^ 16

end Telemetry

end WeatherTerminal
