import WeatherTerminal.Http.Model.Url
/-!
# HTTP — a GET request

`webclient_get`: it connects to the server of a URL, sends the default
header, handles the head of the reply, and follows a redirection to its
location. What each connection meets is an input.
-/

namespace WeatherTerminal

namespace Http

/-- `WEBCLIENT_ERROR`, the code of a request that could not be made, negated
where it is returned. -/
abbrev error : ℤ := 1

/-- What a `webclient_connect`, and the reply on the connection, meet. -/
structure Connection where
  /-- The result of the resolver, of the socket and of the connect. -/
  rc : ℤ
  net : List Segment
  /-- The copies of the first line and of the location are granted. -/
  dupGranted : Bool
  locationGranted : Bool
deriving DecidableEq, Repr

/-! ## Connecting -/

/-- `webclient_connect`: its result, the session, and the address. TLS is
not compiled in. -/
def webclientConnect (s : Session) (uri : List UInt8) (c : Connection) :
    ℤ × Session × Option Address :=
  if (utf8 "https://").isPrefixOf uri then (-error, s, none)
  else match resolveAddress uri with
    | none => (-error, s, none)
    | some a =>
        if c.rc ≠ 0 then (c.rc, s, some a) else (0, { s with socket := true, net := c.net }, some a)

/-- `webclient_clean`. The size of the chunk is left as it is. -/
def Session.clean (s : Session) : Session := { s with socket := false, contentLength := -1 }

/-! ## The request -/

/-- `webclient_header_fields_add`: the header with more of it behind, or
`none` where the buffer is too small. -/
def headerFieldsAdd (size : ℕ) (header fields : List UInt8) : Option (List UInt8) :=
  if size ≤ (header ++ fields).length then none else some (header ++ fields)

/-- `webclient_send_header` with the default data: what it sends, or `none`
where the header does not fit. -/
def sendHeader (size : ℕ) (a : Address) : Option (List UInt8) := do
  let header ← headerFieldsAdd size [] (utf8 "GET " ++ a.request ++ utf8 " HTTP/1.1\r\n")
  let header ← headerFieldsAdd size header (utf8 "Host: " ++ a.host ++ utf8 "\r\n")
  headerFieldsAdd size header (utf8 "User-Agent: RT-Thread HTTP Agent\r\n\r\n")

/-! ## Getting -/

/-- What `webclient_get` leaves: its result, the session, and the requests
it has sent. -/
structure GetResult where
  rc : ℤ
  session : Session
  requests : List (List UInt8)

/-- `webclient_get`, with the connections it meets one after the other. -/
def webclientGet (size : ℕ) (line : Block 16) (s : Session) (uri : List UInt8)
    (requests : List (List UInt8)) : List Connection → Except Fault GetResult
  | [] => .ok ⟨-error, s, requests⟩
  | c :: conns =>
      match webclientConnect s uri c with
      | (_, s, none) => .ok ⟨-error, s, requests⟩
      | (rc, s, some a) =>
          if rc ≠ 0 then .ok ⟨rc, s, requests⟩
          else match sendHeader size a with
            | none => .ok ⟨-nomem, s, requests⟩
            | some request =>
                let requests := requests ++ [request]
                match handleResponse s size c.dupGranted line with
                | .error e => .error e
                | .ok r =>
                    let location := if r.rc = 302 ∨ r.rc = 301
                      then headerFieldsGet r.header (utf8 "Location") else none
                    match location with
                    | none => .ok ⟨r.rc, r.session, requests⟩
                    | some p =>
                        if c.locationGranted = false then .ok ⟨-nomem, r.session, requests⟩
                        else webclientGet size r.line r.session.clean (r.header.buffer.cstr p)
                          requests conns

end Http

end WeatherTerminal
