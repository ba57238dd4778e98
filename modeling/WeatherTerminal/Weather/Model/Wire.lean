import WeatherTerminal.Http.Model.Get
import WeatherTerminal.Weather.Model.Comm
/-!
# Weather — fetching a reply over the wire

`weather_get_comm` once more, with the HTTP client under it in place of the
outcomes its reads may have. What the sockets deliver is an input. The
loops are run with fuel.
-/

namespace WeatherTerminal

namespace Weather

namespace Wire

/-- `GET_HEADER_BUFSZ`: the size of the buffer of the header. -/
abbrev headerBufsz : ℕ := 1024

/-- The session `webclient_session_create` returns, without a connection. -/
def sessionCreate : Http.Session := { net := [], socket := false }

/-- The loop over a chunked body, each read being laid behind the one before
it. -/
def readChunked (buffer : Block respBufsz) : ℕ → Http.Session → Option (ℤ × Block respBufsz)
  | 0, _ => none
  | fuel + 1, s =>
      let r := Http.webclientRead s respBufsz
      let buffer := buffer.storeAll 0 r.piece
      if r.rc ≤ 0 then some (r.rc, buffer) else readChunked buffer fuel r.session

/-- The loop over a body of known length, which asks for what is still to
come. -/
def readSized (contentLength : ℤ) (buffer : Block respBufsz) (contentPos : ℤ) :
    ℕ → Http.Session → Option (ℤ × Block respBufsz)
  | 0, _ => none
  | fuel + 1, s =>
      let r := Http.webclientRead s (request contentLength contentPos)
      let buffer := buffer.storeAll 0 r.piece
      if r.rc ≤ 0 then some (r.rc, buffer)
      else if contentPos + r.rc < contentLength then
        readSized contentLength buffer (contentPos + r.rc) fuel r.session
      else some (r.rc, buffer)

/-- `weather_get_comm` over the client's own session: none where the fuel has
run out. -/
def weatherGetComm (fuel : ℕ) (session : Bool) (line : Block 16) (uri : List UInt8)
    (conns : List Http.Connection) (bytesRead : ℤ) (buffer : Block respBufsz) :
    Option (Except Fault Comm) :=
  if session = false then some (.ok { ret := -rtEnomem, bytesRead := bytesRead, buffer := buffer })
  else match Http.webclientGet headerBufsz line sessionCreate uri [] conns with
    | .error e => some (.error e)
    | .ok g =>
        if g.rc ≠ 200 then
          some (.ok { ret := -rtError, bytesRead := bytesRead, buffer := buffer })
        else
          let loop := if g.session.contentLength < 0 then readChunked buffer fuel g.session
            else readSized g.session.contentLength buffer 0 fuel g.session
          loop.map fun (bytesRead, buffer) =>
            .ok { ret := rtEok, bytesRead := bytesRead, buffer := buffer }

end Wire

end Weather

end WeatherTerminal
