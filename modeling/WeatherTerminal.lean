import WeatherTerminal.Calls
import WeatherTerminal.Jsmn.Tail
import WeatherTerminal.Lcd.Clear
import WeatherTerminal.Lcd.DrawLine
import WeatherTerminal.Lcd.Fill
import WeatherTerminal.Lcd.Flush
import WeatherTerminal.Lcd.Graphic
import WeatherTerminal.Lcd.ShowChar
import WeatherTerminal.Led.Clock
import WeatherTerminal.Led.Dma
import WeatherTerminal.Led.RoundTrip
import WeatherTerminal.Mqtt.Copy
import WeatherTerminal.Mqtt.Recv
import WeatherTerminal.Telemetry.Report
import WeatherTerminal.Weather.Absent
import WeatherTerminal.Weather.Isolation
import WeatherTerminal.Weather.Plain
import WeatherTerminal.Weather.Refresh
import WeatherTerminal.Weather.Splitting
import WeatherTerminal.Weather.Truthful
import WeatherTerminal.Lcd.Model.ShowChar
import WeatherTerminal.Lcd.ShowChar
import WeatherTerminal.Common.Numeral
import WeatherTerminal.Common.Stream
import WeatherTerminal.Http.Model.Session
import WeatherTerminal.Common.Source
import WeatherTerminal.Http.Body
import WeatherTerminal.Http.Model.Head
import WeatherTerminal.Http.Head
import WeatherTerminal.Http.Reply
import WeatherTerminal.Http.Model.Url
import WeatherTerminal.Http.Url
import WeatherTerminal.Http.Model.Get
import WeatherTerminal.Http.Get
import WeatherTerminal.Weather.Model.Wire
import WeatherTerminal.Weather.Wire
import WeatherTerminal.Common.Filter
import WeatherTerminal.Mqtt.Model.Topic
import WeatherTerminal.Mqtt.Topic
import WeatherTerminal.Mqtt.Model.Serialize
import WeatherTerminal.Mqtt.Serialize
import WeatherTerminal.Mqtt.Model.Client
import WeatherTerminal.Common.Outbox
import WeatherTerminal.Mqtt.Pending
import WeatherTerminal.Mqtt.Call
import WeatherTerminal.Mqtt.Model.Subscription
import WeatherTerminal.Mqtt.Subscription
import WeatherTerminal.Mqtt.Model.Connect
import WeatherTerminal.Mqtt.Model.Session
import WeatherTerminal.Common.Frame
import WeatherTerminal.Mqtt.Session
import WeatherTerminal.Mqtt.Alive
import WeatherTerminal.Mqtt.Redelivery
