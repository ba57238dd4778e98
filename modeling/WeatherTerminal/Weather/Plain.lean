import WeatherTerminal.Weather.Extract
/-!
# Weather — plain replies

Every twenty texts have a reply: the document with nothing else in it. So
what is said of all texts a reply can have is said of all texts.
-/

namespace WeatherTerminal

namespace Weather

open Jsmn

/-- The key of a text, as a string of a document. -/
def Field.keyText (f : Field) : Text where
  bytes := f.key
  valid := by
    rcases f with - | - | - | - | - | - | - | - | d | d | d | d <;> rfl

variable (t : Reply Text)

/-- The first of the forecasts, with the texts of today. -/
def plainToday : Value :=
  .object noBlank <| stringMember (Field.keyText .high) (t .high) <|
    stringMember (Field.keyText .low) (t .low) <|
    stringMember (Field.keyText .date) (t .date) <|
    stringMember (Field.keyText .week) (t .week) .nil

/-- The forecast of a day after today, with its texts. -/
def plainDay (d : Day) : Value :=
  .object noBlank <| stringMember (Field.keyText (.textDay d)) (t (.textDay d)) <|
    stringMember (Field.keyText (.dayHigh d)) (t (.dayHigh d)) <|
    stringMember (Field.keyText (.dayLow d)) (t (.dayLow d)) <|
    stringMember (Field.keyText (.dayWeek d)) (t (.dayWeek d)) .nil

/-- The four forecasts, one for each day. -/
def plainForecasts : Elements :=
  .cons noBlank (plainToday t) noBlank <| .cons noBlank (plainDay t .day1) noBlank <|
    .cons noBlank (plainDay t .day2) noBlank <| .cons noBlank (plainDay t .day3) noBlank .nil

/-- The place, the weather now and the forecasts, with these texts. -/
def plainResult : Members :=
  valueMember keyLocation
    (.object noBlank (stringMember (Field.keyText .name) (t .name) .nil)) <|
  valueMember keyNow
    (.object noBlank <| stringMember (Field.keyText .text) (t .text) <|
      stringMember (Field.keyText .rh) (t .rh) <|
      stringMember (Field.keyText .feelsLike) (t .feelsLike) .nil) <|
  valueMember keyForecasts (.array noBlank (plainForecasts t)) .nil

/-- A reply with these texts, without white space and with nothing else in it.
-/
def plainReply : Document where
  before := noBlank
  value := .object noBlank (valueMember keyResult (.object noBlank (plainResult t)) .nil)
  behind := noBlank

/-- Each of the texts is where the code looks for it. -/
theorem plainReply_textAt (f : Field) : (plainReply t).textAt f.path = some (t f).bytes := by
  rcases f with - | - | - | - | - | - | - | - | (- | - | -) | (- | - | -) | (- | - | -) |
    (- | - | -) <;> rfl

/-- Such a reply has no more tokens than the code provides room for. -/
theorem plainReply_size : (plainReply t).value.size ≤ 150 := Nat.le_of_ble_eq_true rfl

/-- **Any texts are the texts of a reply**, whatever stands behind it. -/
theorem replyOf_plainReply (tail : List UInt8) :
    ReplyOf ((plainReply t).render ++ tail) (plainReply t).render.length (fun f => (t f).bytes) :=
  replyOf_document (plainReply_size t) (plainReply_textAt t) tail

end Weather

end WeatherTerminal
