import Mathlib.Data.Fin.VecNotation
import Mathlib.Algebra.Order.Floor.Semiring
import Mathlib.Data.Rat.Floor
import Mathlib.Tactic.Linarith
import WeatherTerminal.Telemetry.Message
/-!
# Telemetry — reports

The title fits its array whatever the sensors say, since they say little:
temperature and humidity come from twenty bits each. The message has four
numbers in it, the light and the distance among them, and fits its array
exactly where their orders of magnitude leave room
(`payload_overrun_iff`).
-/

namespace WeatherTerminal

namespace Telemetry

open Jsmn

variable {rounding : Rounding} {client : Client} {x : ℚ}

/-! ## What the sensors can say -/

/-- The temperature has twenty bits, whatever the bytes hold beside it. -/
theorem temperatureCode_lt (temp : Fin 6 → UInt8) : temperatureCode temp < 2 ^ 20 := by
  have h3 : (temp 3 &&& 0xf).toNat < 2 ^ 4 := by
    rw [UInt8.toNat_and]
    exact Nat.lt_of_le_of_lt Nat.and_le_right (by decide)
  have h4 := (temp 4).toNat_lt
  have h5 := (temp 5).toNat_lt
  unfold temperatureCode
  refine Nat.or_lt_two_pow (Nat.or_lt_two_pow ?_ ?_) (by omega)
  · rw [Nat.shiftLeft_eq]
    omega
  · rw [Nat.shiftLeft_eq]
    omega

theorem humidityCode_lt (temp : Fin 6 → UInt8) : humidityCode temp < 2 ^ 20 := by
  have h1 := (temp 1).toNat_lt
  have h2 := (temp 2).toNat_lt
  have h3 := (temp 3 &&& 0xf0).toNat_lt
  unfold humidityCode
  refine Nat.or_lt_two_pow (Nat.or_lt_two_pow ?_ ?_) ?_
  · rw [Nat.shiftLeft_eq]
    omega
  · rw [Nat.shiftLeft_eq]
    omega
  · rw [Nat.shiftRight_eq_div_pow]
    omega

/-- A temperature is between -50 and 150 degrees, the sensor calibrated or
not. -/
theorem readHwTemperature_bounds (s : Aht10Sample) :
    -50 ≤ readHwTemperature s ∧ readHwTemperature s < 150 := by
  have hlt : (temperatureCode s.temp : ℚ) < 2 ^ 20 := by
    exact_mod_cast temperatureCode_lt s.temp
  have hnonneg : (0 : ℚ) ≤ temperatureCode s.temp := Nat.cast_nonneg _
  unfold readHwTemperature
  split
  · constructor
    · have : (0 : ℚ) ≤ temperatureCode s.temp * 200 / 2 ^ 20 := by positivity
      linarith
    · have : (temperatureCode s.temp * 200 / 2 ^ 20 : ℚ) < 200 := by
        rw [div_lt_iff₀ (by positivity)]
        linarith
      linarith
  · constructor <;> norm_num

theorem readHwHumidity_bounds (s : Aht10Sample) :
    0 ≤ readHwHumidity s ∧ readHwHumidity s < 100 := by
  have hlt : (humidityCode s.temp : ℚ) < 2 ^ 20 := by
    exact_mod_cast humidityCode_lt s.temp
  unfold readHwHumidity
  split
  · constructor
    · positivity
    · rw [div_lt_iff₀ (by positivity)]
      linarith
  · constructor <;> norm_num

theorem readAmbientLight_nonneg (r : Ap3216cRegs) : 0 ≤ readAmbientLight r := by
  unfold readAmbientLight
  simp only
  split_ifs <;> positivity

/-! ## How it is printed -/

/-- `v` is the reading rounded to two decimals: a number of hundredths, at
most half of one away. -/
def Rounded (x v : ℚ) : Prop := (∃ n : ℤ, v = n / 100) ∧ |v - x| ≤ 1 / 200

/-- The order of magnitude of a reading, as it is rounded. -/
def Rounding.magnitude (rounding : Rounding) (x : ℚ) : ℕ :=
  Nat.log 10 (rounding.hundredths x / 100)

/-- **A float reads back rounded**, however its ties are rounded. -/
theorem read_printFloat (rounding : Rounding) (x : ℚ) :
    ∃ v, Decimal.read (printFloat rounding x) = some v ∧ Rounded x v := by
  have hnear := abs_le.mp (rounding.nearest x)
  rcases lt_or_ge x 0 with hneg | hpos
  · rw [abs_of_neg hneg] at hnear
    refine ⟨-((rounding.hundredths x : ℚ) / 10 ^ 2), ?_, ⟨-(rounding.hundredths x : ℤ), ?_⟩, ?_⟩
    · rw [printFloat, Decimal.read_fixed _ (by omega), decide_eq_true hneg]
      rfl
    · push_cast
      ring
    · rw [abs_le]
      constructor <;> linarith
  · rw [abs_of_nonneg hpos] at hnear
    refine ⟨(rounding.hundredths x : ℚ) / 10 ^ 2, ?_, ⟨rounding.hundredths x, ?_⟩, ?_⟩
    · rw [printFloat, Decimal.read_fixed _ (by omega), decide_eq_false (not_lt.mpr hpos)]
      rfl
    · push_cast
      ring
    · rw [abs_le]
      constructor <;> linarith

theorem read_printInt (n : ℕ) : Decimal.read (printInt n) = some (n : ℚ) := by
  rw [printInt, Decimal.read_digits, decide_eq_false (by omega), Int.natAbs_natCast]
  rfl

/-- A float takes its sign, the digits of its whole part, a point and two
more. -/
theorem length_printFloat (rounding : Rounding) (x : ℚ) :
    (printFloat rounding x).length = (if x < 0 then 1 else 0) + rounding.magnitude x + 4 := by
  have hplace : 10 ^ 2 = 100 := rfl
  simp only [printFloat, Decimal.length_fixed, Rounding.magnitude, decide_eq_true_eq, hplace]
  omega

theorem length_printInt (n : ℕ) : (printInt n).length = Nat.log 10 n + 1 := by
  rw [printInt, decide_eq_false (by omega), Int.natAbs_natCast, List.length_append,
    Decimal.length_digits]
  exact Nat.zero_add _

/-- A reading has no more digits than the bound of its range. -/
theorem magnitude_le {N : ℕ} (h : |x| ≤ N) : rounding.magnitude x ≤ Nat.log 10 N := by
  have hnear := (abs_le.mp (rounding.nearest x)).2
  have hlt : (rounding.hundredths x : ℚ) < ((100 * N + 1 : ℕ) : ℚ) := by
    push_cast
    linarith
  have hle : rounding.hundredths x < 100 * N + 1 := by exact_mod_cast hlt
  exact Nat.log_mono_right (by omega)

/-- A reading whose whole part no rounding lengthens has the digits of it. -/
theorem magnitude_eq {k : ℕ} (hlow : 10 ^ k ≤ |x|) (hhigh : |x| ≤ 10 ^ (k + 1) - 1) :
    rounding.magnitude x = k := by
  obtain ⟨hdown, hup⟩ := abs_le.mp (rounding.nearest x)
  have hlt : (rounding.hundredths x : ℚ) < ((100 * 10 ^ (k + 1) : ℕ) : ℚ) := by
    push_cast
    linarith
  have hgt : ((100 * 10 ^ k : ℕ) : ℚ) < ((rounding.hundredths x + 1 : ℕ) : ℚ) := by
    push_cast
    linarith
  have hlt : rounding.hundredths x < 100 * 10 ^ (k + 1) := by exact_mod_cast hlt
  have hgt : 100 * 10 ^ k < rounding.hundredths x + 1 := by exact_mod_cast hgt
  exact Nat.log_eq_of_pow_le_of_lt_pow (by omega) (by omega)

/-- What the AHT10 says is printed in six bytes at most. -/
theorem length_printFloat_le (rounding : Rounding) (hlow : -50 ≤ x) (hhigh : x < 150) :
    (printFloat rounding x).length ≤ 6 := by
  rw [length_printFloat]
  split
  · rename_i hneg
    have hmag : rounding.magnitude x ≤ Nat.log 10 50 := magnitude_le (by
      rw [abs_of_neg hneg]
      push_cast
      linarith)
    have hlog : Nat.log 10 50 = 1 :=
      Nat.log_eq_of_pow_le_of_lt_pow (by decide) (by decide)
    omega
  · rename_i hpos
    have hmag : rounding.magnitude x ≤ Nat.log 10 150 := magnitude_le (by
      rw [abs_of_nonneg (not_lt.mp hpos)]
      push_cast
      linarith)
    have hlog : Nat.log 10 150 = 2 :=
      Nat.log_eq_of_pow_le_of_lt_pow (by decide) (by decide)
    omega

/-! ## The two arrays -/

/-- Filling an array from its start overruns it where the text and its NUL
are longer than the array. -/
theorem strcpy_filled_overrun {n : ℕ} (text : List UInt8) :
    ((Block.filled n 0).strcpy 0 text).overrun = false ↔ text.length < n := by
  rw [Block.strcpy_overrun, Nat.zero_add]
  show (false || decide (n < text.length + 1)) = false ↔ _
  rw [Bool.false_or, decide_eq_false_iff_not]
  omega

theorem zero_notMem_printFloat (rounding : Rounding) (x : ℚ) : 0 ∉ printFloat rounding x :=
  fun h => absurd (Decimal.inNumber_of_mem_fixed _ _ _ 0 h) (by decide)

/-- **The title always fits** its array, whatever is measured. -/
theorem buf_overrun (rounding : Rounding) (client : Client) (r : Readings) (count : ℤ) :
    (timer2Callback rounding client r count).buf.overrun = false := by
  obtain ⟨htlow, hthigh⟩ := readHwTemperature_bounds r.temp
  obtain ⟨hhlow, hhhigh⟩ := readHwHumidity_bounds r.humi
  set temp := readHwTemperature r.temp
  set humi := readHwHumidity r.humi
  have hltemp := length_printFloat_le rounding htlow hthigh
  have hlhumi := length_printFloat_le rounding (show -50 ≤ humi by linarith)
    (show humi < 150 by linarith)
  set title := format rounding titleFormat [.float temp, .float humi] with htitle
  have hbuf : (timer2Callback rounding client r count).buf =
      ((Block.filled 40 0).strcpy 0 title).strcat 0 (utf8 "%") := by
    unfold timer2Callback
    split <;> rfl
  rw [format_title] at htitle
  have hzero : 0 ∉ title := by
    have h0 : (0 : UInt8) ∉ utf8 "温度:" := by decide
    have h1 : (0 : UInt8) ∉ utf8 "°C  湿度:" := by decide
    have h2 : (0 : UInt8) ∉ utf8 " " := by decide
    rw [htitle]
    simp only [List.mem_append, not_or]
    exact ⟨h0, zero_notMem_printFloat rounding temp, h1, zero_notMem_printFloat rounding humi, h2⟩
  rw [hbuf, Block.strcat_strcpy hzero (Nat.zero_le _), strcpy_filled_overrun, htitle]
  have hlen : (utf8 "温度:").length = 7 ∧ (utf8 "°C  湿度:").length = 12 ∧
      (utf8 " ").length = 1 ∧ (utf8 "%").length = 1 := by decide
  simp only [List.length_append]
  omega

/-- The text of a message, as the reader of the array finds it. -/
def payloadText (rounding : Rounding) (r : Readings) : List UInt8 :=
  format rounding payloadFormat [.float (readHwTemperature r.temp), .float (readHwHumidity r.humi),
    .float (readAmbientLight r.light), .int (readPsData r.light)]

/-- The array of a message holds the text that is printed to it. -/
theorem payload_eq {r : Readings} {count : ℤ} {payload : Block 100}
    (h : (timer2Callback rounding client r count).payload = some payload) :
    payload = (Block.filled 100 0).strcpy 0 (payloadText rounding r) := by
  unfold timer2Callback at h
  split at h
  · exact (Option.some.inj h).symm
  · cases h

/-- The document a call is to report: the four readings under their names. -/
def reportOf (rounding : Rounding) (r : Readings) : Document :=
  report (floatWord rounding (readHwTemperature r.temp))
    (floatWord rounding (readHwHumidity r.humi))
    (floatWord rounding (readAmbientLight r.light)) (intWord (readPsData r.light))

theorem render_reportOf (rounding : Rounding) (r : Readings) :
    (reportOf rounding r).render = payloadText rounding r := by
  rw [reportOf, render_report, payloadText, format_payload]
  rfl

/-- There is no NUL in it, so the message ends where it does. -/
theorem zero_notMem_payloadText (rounding : Rounding) (r : Readings) :
    0 ∉ payloadText rounding r := by
  have h0 : (0 : UInt8) ∉ beforeTemperature := by decide
  have h1 : (0 : UInt8) ∉ beforeHumidity := by decide
  have h2 : (0 : UInt8) ∉ beforeLight := by decide
  have h3 : (0 : UInt8) ∉ beforePs := by decide
  have h4 : (0 : UInt8) ∉ utf8 "\x7d\x7d" := by decide
  have hint : 0 ∉ printInt (readPsData r.light) :=
    fun h => absurd (inNumber_of_mem_printInt _ 0 h) (by decide)
  rw [payloadText, format_payload]
  simp only [List.mem_append, not_or]
  exact ⟨h0, zero_notMem_printFloat _ _, h1, zero_notMem_printFloat _ _, h2,
    zero_notMem_printFloat _ _, h3, hint, h4⟩

theorem length_payloadText (rounding : Rounding) (r : Readings) :
    (payloadText rounding r).length = 93 + (if readHwTemperature r.temp < 0 then 1 else 0) +
      rounding.magnitude (readHwTemperature r.temp) + rounding.magnitude (readHwHumidity r.humi) +
      rounding.magnitude (readAmbientLight r.light) + Nat.log 10 (readPsData r.light) := by
  have hhumi : ¬ readHwHumidity r.humi < 0 := not_lt.mpr (readHwHumidity_bounds r.humi).1
  have hlight : ¬ readAmbientLight r.light < 0 := not_lt.mpr (readAmbientLight_nonneg r.light)
  have hlen : beforeTemperature.length = 33 ∧ beforeHumidity.length = 20 ∧
      beforeLight.length = 13 ∧ beforePs.length = 12 ∧ (utf8 "\x7d\x7d").length = 2 := by decide
  rw [payloadText, format_payload]
  simp only [List.length_append, length_printFloat, length_printInt, if_neg hhumi, if_neg hlight]
  omega

/-- **The message fits where its numbers leave room** for the NUL in an array
of a hundred bytes. -/
theorem payload_overrun_iff {r : Readings} {count : ℤ} {message : Block 100}
    (h : (timer2Callback rounding client r count).payload = some message) :
    message.overrun = false ↔
      (if readHwTemperature r.temp < 0 then 1 else 0) +
        rounding.magnitude (readHwTemperature r.temp) +
        rounding.magnitude (readHwHumidity r.humi) +
        rounding.magnitude (readAmbientLight r.light) + Nat.log 10 (readPsData r.light) ≤ 6 := by
  have hlen := length_payloadText rounding r
  rw [payload_eq h, strcpy_filled_overrun]
  omega

/-- And is then the document's text, up to its NUL. -/
theorem cstr_payload {r : Readings} {count : ℤ} {message : Block 100}
    (h : (timer2Callback rounding client r count).payload = some message)
    (hfits : message.overrun = false) : message.cstr 0 = (reportOf rounding r).render := by
  rw [payload_eq h, strcpy_filled_overrun] at hfits
  rw [payload_eq h, Block.cstr_strcpy (zero_notMem_payloadText rounding r) (by omega),
    render_reportOf]

/-- **What is published is the document**, under the device's topic. -/
theorem published_eq {r : Readings} {count : ℤ} {message : Block 100}
    (h : (timer2Callback rounding client r count).payload = some message)
    (hfits : message.overrun = false) (hgranted : client.topicGranted = true) :
    (timer2Callback rounding client r count).published =
      some { topic := utf8 "/sys/" ++ (client.productKey ++ (utf8 "/" ++ (client.deviceName ++
               utf8 "/thing/event/property/post")))
             payload := (reportOf rounding r).render } := by
  have hcall : (timer2Callback rounding client r count).published =
      (mqttMainPublish rounding client message).2 := by
    unfold timer2Callback at h ⊢
    split at h
    · rename_i hcount
      rw [if_pos hcount, ← Option.some.inj h]
    · cases h
  rw [hcall, mqttMainPublish_granted message hgranted, cstr_payload h hfits]

/-! ## A report -/

/-- A call that publishes `message` has written inside both its arrays, and
what it publishes is JSON with the four readings in it. -/
structure Reports (r : Readings) (c : Call) (message : Block 100) : Prop where
  buf : c.buf.overrun = false
  payload : message.overrun = false
  document : ∃ d : Document, d.render = message.cstr 0 ∧ d.value.strict = true ∧
    (∃ v, d.numberAt (param "CurrentTemperature") = some v ∧
      Rounded (readHwTemperature r.temp) v) ∧
    (∃ v, d.numberAt (param "CurrentHumidity") = some v ∧ Rounded (readHwHumidity r.humi) v) ∧
    (∃ v, d.numberAt (param "LightLux") = some v ∧ Rounded (readAmbientLight r.light) v) ∧
    d.numberAt (param "ps_data") = some (readPsData r.light : ℚ)

/-- **A report is made where its numbers leave room**: the minus sign and
the orders of magnitude of the four readings, the rounded ones, come to
six at most. -/
theorem timer2Callback_reports_iff {r : Readings} {count : ℤ} {message : Block 100}
    (h : (timer2Callback rounding client r count).payload = some message) :
    Reports r (timer2Callback rounding client r count) message ↔
      (if readHwTemperature r.temp < 0 then 1 else 0) +
        rounding.magnitude (readHwTemperature r.temp) +
        rounding.magnitude (readHwHumidity r.humi) +
        rounding.magnitude (readAmbientLight r.light) + Nat.log 10 (readPsData r.light) ≤ 6 := by
  have hfits := payload_overrun_iff h
  refine ⟨fun hreports => hfits.mp hreports.payload, fun hroom => ?_⟩
  obtain ⟨t, ht, htr⟩ := read_printFloat rounding (readHwTemperature r.temp)
  obtain ⟨u, hu, hur⟩ := read_printFloat rounding (readHwHumidity r.humi)
  obtain ⟨l, hl, hlr⟩ := read_printFloat rounding (readAmbientLight r.light)
  have hp := read_printInt (readPsData r.light)
  obtain ⟨htemp, hhumi, hlight, hps⟩ := numberAt_report (show reportOf rounding r = _ from rfl)
  have hstrict : (reportOf rounding r).value.strict = true :=
    strict_report (strict_of_read ht) (strict_of_read hu) (strict_of_read hl) (strict_of_read hp)
  exact
    { buf := buf_overrun rounding client r count
      payload := hfits.mpr hroom
      document := ⟨reportOf rounding r, (cstr_payload h (hfits.mpr hroom)).symm, hstrict,
        ⟨t, htemp.trans ht, htr⟩, ⟨u, hhumi.trans hu, hur⟩, ⟨l, hlight.trans hl, hlr⟩,
        hps.trans hp⟩ }

/-! ## Two rooms -/

/-- Ties away from zero, which is one of the roundings. -/
def halfUp : Rounding where
  hundredths x := ⌊100 * |x| + 1 / 2⌋₊
  nearest x := by
    have hnonneg : 0 ≤ 100 * |x| + 1 / 2 := by positivity
    have hfloor := Nat.floor_le hnonneg
    have hlt := Nat.lt_floor_add_one (100 * |x| + 1 / 2)
    rw [abs_le]
    constructor <;> linarith

/-- 21.5 degrees and 45 per cent, as the sensor gives them. -/
def climate : Aht10Sample :=
  { status := 0x08, temp := ![0x1C, 0x73, 0x33, 0x35, 0xB8, 0x52] }

/-- Something close, in 350 lux, as the sensor gives it. -/
def lamp : Ap3216cRegs :=
  { alsConfiguration := 0x00, alsDataL := 0xE8, alsDataH := 0x03, psDataL := 0x00, psDataH := 0x20 }

/-- Something close, in 1234.45 lux, a number with a digit more. -/
def daylight : Ap3216cRegs :=
  { alsConfiguration := 0x00, alsDataL := 0xC7, alsDataH := 0x0D, psDataL := 0x00, psDataH := 0x20 }

theorem readHwTemperature_climate : readHwTemperature climate = 1409025 / 65536 := by
  have hcode : temperatureCode climate.temp = 374866 := by decide
  rw [readHwTemperature, if_pos (by decide), hcode]
  norm_num

theorem readHwHumidity_climate : readHwHumidity climate = 11796475 / 262144 := by
  have hcode : humidityCode climate.temp = 471859 := by decide
  rw [readHwHumidity, if_pos (by decide), hcode]
  norm_num

/-- The brightness in the widest range, from the sixteen bits. -/
theorem readAmbientLight_of_range {r : Ap3216cRegs} (data : ℕ)
    (hrange : getAlsRange r.alsConfiguration = alsRange20661)
    (hdata : readLowAndHigh r.alsDataL r.alsDataH = data) :
    readAmbientLight r = 0.35 * data := by
  unfold readAmbientLight
  simp only
  rw [if_pos hrange, hdata]

theorem log_readPsData :
    Nat.log 10 (readPsData lamp) = 2 ∧ Nat.log 10 (readPsData daylight) = 2 := by
  have hlamp : readPsData lamp = 512 := by decide
  have hdaylight : readPsData daylight = 512 := by decide
  have hlog : Nat.log 10 512 = 2 := Nat.log_eq_of_pow_le_of_lt_pow (by decide) (by decide)
  rw [hlamp, hdaylight]
  exact ⟨hlog, hlog⟩

/-- A client with its names, for which the topic's block is granted. -/
def sampleClient : Client :=
  { productKey := utf8 "key", deviceName := utf8 "name", topicGranted := true, res := 0 }

/-- A room with this light in it, and with the climate of before. -/
def room (light : Ap3216cRegs) : Readings := { humi := climate, temp := climate, light := light }

/-- What the climate leaves for the light and the distance. -/
theorem room_iff {light : Ap3216cRegs} :
    (if readHwTemperature (room light).temp < 0 then 1 else 0) +
        rounding.magnitude (readHwTemperature (room light).temp) +
        rounding.magnitude (readHwHumidity (room light).humi) +
        rounding.magnitude (readAmbientLight (room light).light) +
        Nat.log 10 (readPsData (room light).light) ≤ 6 ↔
      rounding.magnitude (readAmbientLight light) + Nat.log 10 (readPsData light) ≤ 4 := by
  show (if readHwTemperature climate < 0 then 1 else 0) +
    rounding.magnitude (readHwTemperature climate) + rounding.magnitude (readHwHumidity climate) +
      rounding.magnitude (readAmbientLight light) + Nat.log 10 (readPsData light) ≤ 6 ↔ _
  rw [readHwTemperature_climate, readHwHumidity_climate]
  have htemp : rounding.magnitude (1409025 / 65536) = 1 := by
    refine magnitude_eq ?_ ?_ <;> rw [abs_of_nonneg (by norm_num)] <;> norm_num
  have hhumi : rounding.magnitude (11796475 / 262144) = 1 := by
    refine magnitude_eq ?_ ?_ <;> rw [abs_of_nonneg (by norm_num)] <;> norm_num
  rw [htemp, hhumi, if_neg (by norm_num)]
  omega

/-- Under the lamp the message is reported as the document. -/
theorem timer2Callback_reports_lamp :
    ∃ message, (timer2Callback halfUp sampleClient (room lamp) 6).payload = some message ∧
      Reports (room lamp) (timer2Callback halfUp sampleClient (room lamp) 6) message := by
  refine ⟨_, rfl, (timer2Callback_reports_iff rfl).mpr (room_iff.mpr ?_)⟩
  have hlight : halfUp.magnitude (readAmbientLight lamp) = 2 := by
    rw [readAmbientLight_of_range 1000 (by decide) (by decide)]
    exact magnitude_eq (by norm_num) (by norm_num)
  rw [hlight, log_readPsData.1]

/-- By day the message is a byte too long, and is not reported as the
document. -/
theorem not_reports_daylight :
    ∃ message, (timer2Callback halfUp sampleClient (room daylight) 6).payload = some message ∧
      ¬ Reports (room daylight) (timer2Callback halfUp sampleClient (room daylight) 6) message := by
  obtain ⟨message, h⟩ : ∃ message,
    (timer2Callback halfUp sampleClient (room daylight) 6).payload = some message := ⟨_, rfl⟩
  refine ⟨message, h, fun hreports => ?_⟩
  have hroom := room_iff.mp ((payload_overrun_iff h).mp hreports.payload)
  have hlight : halfUp.magnitude (readAmbientLight daylight) = 3 := by
    rw [readAmbientLight_of_range 3527 (by decide) (by decide)]
    exact magnitude_eq (by norm_num) (by norm_num)
  rw [hlight, log_readPsData.2] at hroom
  omega

end Telemetry

end WeatherTerminal
