import WeatherTerminal.Jsmn.Model.Strict
import WeatherTerminal.Telemetry.Model.Callback
/-!
# Telemetry — the texts

What the two formats print, and the document the second of them is the
text of (`render_report`): its four numbers are the readings, rounded
(`numberAt_report`).
-/

namespace WeatherTerminal

namespace Telemetry

open Jsmn

variable {rounding : Rounding} {x : ℚ} {n : ℤ}

/-! ## Formats -/

section Format

variable {s fmt : List UInt8} {args : List Arg}

/-- What is not a conversion is printed as it stands. -/
theorem format_cons {c : UInt8} (hc : c ≠ 0x25) :
    format rounding (c :: fmt) args = c :: format rounding fmt args := by
  rw [format]
  all_goals
    intro _ _ _ _ hpercent
    exact absurd hpercent hc

/-- A text without a conversion is printed as it stands. -/
theorem format_text (hs : 0x25 ∉ s) :
    format rounding (s ++ fmt) args = s ++ format rounding fmt args := by
  induction s with
  | nil => rfl
  | cons c s ih =>
      obtain ⟨hc, hs⟩ := not_or.mp (mt List.mem_cons.mpr hs)
      rw [List.cons_append, List.cons_append, format_cons (Ne.symm hc), ih hs]

/-- A conversion `%.2f` prints the next argument with two digits. -/
theorem format_float :
    format rounding (utf8 "%.2f" ++ fmt) (.float x :: args) =
      printFloat rounding x ++ format rounding fmt args := rfl

/-- A conversion `%d` prints the next argument as a whole number. -/
theorem format_int :
    format rounding (utf8 "%d" ++ fmt) (.int n :: args) =
      printInt n ++ format rounding fmt args := rfl

/-- A conversion `%s` prints the next argument as it is. -/
theorem format_string {t : List UInt8} :
    format rounding (utf8 "%s" ++ fmt) (.string t :: args) =
      t ++ format rounding fmt args := rfl

/-- The text behind the last conversion is printed as it stands. -/
theorem format_end (hs : 0x25 ∉ s) : format rounding s args = s := by
  have h : format rounding (s ++ []) args = s ++ format rounding [] args := format_text hs
  rwa [List.append_nil, format, List.append_nil] at h

end Format

/-! ## The two texts -/

/-- The title that is shown, with its two numbers in place. -/
theorem format_title (temp humi : ℚ) :
    format rounding titleFormat [.float temp, .float humi] =
      utf8 "温度:" ++ (printFloat rounding temp ++ (utf8 "°C  湿度:" ++
        (printFloat rounding humi ++ utf8 " "))) := by
  have hsplit : titleFormat = utf8 "温度:" ++ (utf8 "%.2f" ++ (utf8 "°C  湿度:" ++
      (utf8 "%.2f" ++ utf8 " "))) := by decide
  rw [hsplit, format_text (by decide), format_float, format_text (by decide), format_float,
    format_end (by decide)]

/-- The topic that is published to, with the product and the device in place.
-/
theorem format_topic (productKey deviceName : List UInt8) :
    format rounding topicFormat [.string productKey, .string deviceName] =
      utf8 "/sys/" ++ (productKey ++ (utf8 "/" ++ (deviceName ++
        utf8 "/thing/event/property/post"))) := by
  have hsplit : topicFormat = utf8 "/sys/" ++ (utf8 "%s" ++ (utf8 "/" ++ (utf8 "%s" ++
      utf8 "/thing/event/property/post"))) := by decide
  rw [hsplit, format_text (by decide), format_string, format_text (by decide), format_string,
    format_end (by decide)]

/-- **The topic of the device**, which its block always has room for. -/
theorem mqttMainPublish_granted {m : ℕ} {client : Client} (payload : Block m)
    (hgranted : client.topicGranted = true) :
    (mqttMainPublish rounding client payload).2 =
      some { topic := utf8 "/sys/" ++ (client.productKey ++ (utf8 "/" ++ (client.deviceName ++
               utf8 "/thing/event/property/post")))
             payload := payload.cstr 0 } := by
  have hlen : topicFormat.length = 36 ∧ (utf8 "/sys/").length = 5 ∧ (utf8 "/").length = 1 ∧
      (utf8 "/thing/event/property/post").length = 26 := by decide
  unfold mqttMainPublish
  rw [if_neg (by simp [hgranted]), format_topic, List.take_of_length_le]
  simp only [List.length_append]
  omega

/-- What stands before the numbers of a message, and behind the last. -/
def beforeTemperature : List UInt8 := utf8 "\x7b\"params\":\x7b\"CurrentTemperature\": "

/-- What stands between the temperature and the humidity. -/
def beforeHumidity : List UInt8 := utf8 ",\"CurrentHumidity\": "

/-- What stands between the humidity and the brightness. -/
def beforeLight : List UInt8 := utf8 ",\"LightLux\": "

/-- What stands between the brightness and the proximity. -/
def beforePs : List UInt8 := utf8 ",\"ps_data\": "

theorem format_payload (temp humi brightness : ℚ) (psData : ℤ) :
    format rounding payloadFormat [.float temp, .float humi, .float brightness, .int psData] =
      beforeTemperature ++ (printFloat rounding temp ++ (beforeHumidity ++
        (printFloat rounding humi ++ (beforeLight ++ (printFloat rounding brightness ++
          (beforePs ++ (printInt psData ++ utf8 "\x7d\x7d"))))))) := by
  have hsplit : payloadFormat = beforeTemperature ++ (utf8 "%.2f" ++ (beforeHumidity ++
      (utf8 "%.2f" ++ (beforeLight ++ (utf8 "%.2f" ++ (beforePs ++ (utf8 "%d" ++
        utf8 "\x7d\x7d"))))))) := by decide
  rw [hsplit, format_text (by decide), format_float, format_text (by decide), format_float,
    format_text (by decide), format_float, format_text (by decide), format_int,
    format_end (by decide)]

/-! ## Numbers as words -/

/-- A byte of a number may stand in a primitive, and at its start. -/
theorem inWord_of_inNumber {c : UInt8} (hc : Decimal.inNumber c = true) :
    inWord c = true ∧ c ≠ lbrace ∧ c ≠ lbracket ∧ c ≠ quote := by
  rw [Decimal.inNumber, Bool.or_eq_true, Bool.or_eq_true, beq_iff_eq, beq_iff_eq] at hc
  rcases hc with (hdigit | rfl) | rfl
  · obtain ⟨d, hd, rfl⟩ := Decimal.exists_digit hdigit
    have hall : ∀ d < 10, inWord (Decimal.digit d) = true ∧ Decimal.digit d ≠ lbrace ∧
        Decimal.digit d ≠ lbracket ∧ Decimal.digit d ≠ quote := by decide
    exact hall d hd
  · decide
  · decide

/-- **What is printed for a number is a word**, which the tokenizer takes for
a primitive. -/
theorem isWord_of_inNumber {w : List UInt8} (hne : w ≠ [])
    (hw : ∀ c ∈ w, Decimal.inNumber c = true) : isWord w = true := by
  obtain ⟨c, cs, rfl⟩ := List.exists_cons_of_ne_nil hne
  have hhead := (inWord_of_inNumber (hw c List.mem_cons_self)).2
  have hall : (c :: cs).all inWord = true :=
    List.all_eq_true.mpr fun b hb => (inWord_of_inNumber (hw b hb)).1
  simp [isWord, hall, hhead]

/-- A whole number is printed in the bytes of a number. -/
theorem inNumber_of_mem_printInt (n : ℤ) : ∀ c ∈ printInt n, Decimal.inNumber c = true := by
  intro c hc
  rcases List.mem_append.mp hc with hsign | hint
  · exact Decimal.inNumber_of_mem_sign _ c hsign
  · exact Decimal.inNumber_of_isDigit (Decimal.isDigit_of_mem_digits _ c hint)

/-- A number with two digits as a primitive of a document. -/
def floatWord (rounding : Rounding) (x : ℚ) : Word where
  bytes := printFloat rounding x
  valid := isWord_of_inNumber (by
    unfold printFloat Decimal.fixed
    simp [Decimal.digits_ne_nil]) (Decimal.inNumber_of_mem_fixed _ _ _)

/-- A whole number as a primitive of a document. -/
def intWord (n : ℤ) : Word where
  bytes := printInt n
  valid := isWord_of_inNumber (by
    unfold printInt
    simp [Decimal.digits_ne_nil]) (inNumber_of_mem_printInt n)

theorem strict_of_read {w : Word} {q : ℚ} (h : Decimal.read w.bytes = some q) :
    w.strict = true := by
  rw [Word.strict, h]
  rfl

/-! ## The document -/

/-- The one blank that stands behind each colon of the message. -/
def space : Blank := { bytes := [0x20], valid := rfl }

/-- A number under its key, and the members behind it. -/
def numberMember (key : Text) (w : Word) (ms : Members) : Members :=
  .cons noBlank key noBlank space (.primitive w) noBlank ms

/-- What a message is the text of: an object `params` with the four numbers.
-/
def report (temp humi brightness psData : Word) : Document where
  before := noBlank
  value := .object noBlank (.cons noBlank { bytes := utf8 "params", valid := by decide }
    noBlank noBlank
    (.object noBlank <|
      numberMember { bytes := utf8 "CurrentTemperature", valid := by decide } temp <|
      numberMember { bytes := utf8 "CurrentHumidity", valid := by decide } humi <|
      numberMember { bytes := utf8 "LightLux", valid := by decide } brightness <|
      numberMember { bytes := utf8 "ps_data", valid := by decide } psData .nil) noBlank .nil)
  behind := noBlank

/-- The path to a number of a message, by the number's name. -/
def param (name : String) : List Step := [.key (utf8 "params"), .key (utf8 name)]

variable {temp humi brightness psData : Word}

/-- The text of such a document, piece by piece. -/
theorem render_report :
    (report temp humi brightness psData).render =
      beforeTemperature ++ (temp.bytes ++ (beforeHumidity ++ (humi.bytes ++ (beforeLight ++
        (brightness.bytes ++ (beforePs ++ (psData.bytes ++ utf8 "\x7d\x7d"))))))) := by
  simp only [Document.render, report, numberMember, Value.render, Members.render, Members.sep,
    noBlank, space, List.nil_append, List.append_nil, List.append_assoc, List.cons_append]
  rfl

theorem strict_report (htemp : temp.strict = true) (hhumi : humi.strict = true)
    (hbrightness : brightness.strict = true) (hpsData : psData.strict = true) :
    (report temp humi brightness psData).value.strict = true := by
  simp only [report, numberMember, Value.strict, Members.strict, htemp, hhumi, hbrightness, hpsData]
  decide

theorem numberAt_report {d : Document} (hd : d = report temp humi brightness psData) :
    d.numberAt (param "CurrentTemperature") = Decimal.read temp.bytes ∧
      d.numberAt (param "CurrentHumidity") = Decimal.read humi.bytes ∧
      d.numberAt (param "LightLux") = Decimal.read brightness.bytes ∧
      d.numberAt (param "ps_data") = Decimal.read psData.bytes := by
  subst hd
  exact ⟨rfl, rfl, rfl, rfl⟩

end Telemetry

end WeatherTerminal
