import WeatherTerminal.Http.Model.Head
/-!
# HTTP — addresses

`webclient_resolve_address` up to the resolver: the host, the port and the
request of a URL. The port is copied into an array of six bytes.

The URL is one string, and an offset into it stands for a pointer.
-/

namespace WeatherTerminal

namespace Http

/-- What `webclient_resolve_address` takes from a URL: the host, the array of
the port and the request. -/
structure Address where
  host : List UInt8
  portStr : Block 6
  request : List UInt8

/-- `port_str` as it is initialised with the default port, the bytes behind it
being zero. -/
def portInit (port : List UInt8) (h : port.length ≤ 6) : Block 6 := Block.holding 6 port h

/-- `*request`: the text from the slash on, or a single slash where there is
none. -/
def requestAt (hostAddr : List UInt8) : Option ℕ → List UInt8
  | some pathPtr => hostAddr.drop pathPtr
  | none => [47]

/-- The port between the colon and the slash, or the end. -/
def copyPort (hostAddr : List UInt8) (portStr : Block 6) : Option ℕ → Option ℕ → Block 6
  | none, _ => portStr
  | some portPtr, none => portStr.strcpy 0 (hostAddr.drop (portPtr + 1))
  | some portPtr, some pathPtr =>
      let portLen := pathPtr - portPtr - 1
      (portStr.strncpy 0 (hostAddr.drop (portPtr + 1)) portLen).store portLen 0

/-- `webclient_resolve_address` behind the bracket of an IPv6 address, of
which `hostAddrLen` is the length. -/
def resolveParts (urlLen : ℕ) (hostAddr : List UInt8) (hostAddrLen : ℕ) (portStr : Block 6) :
    Option Address :=
  let pathPtr := strstr [47] hostAddr
  -- a colon behind the slash is part of the path
  let portPtr := ((strstr [58] (hostAddr.drop hostAddrLen)).map (hostAddrLen + ·)).filter
    fun q => pathPtr.all (q < ·)
  let hostAddrLen :=
    if hostAddrLen = 0 then portPtr.getD (pathPtr.getD hostAddr.length) else hostAddrLen
  if hostAddrLen < 1 ∨ urlLen < hostAddrLen then none
  else some { host := hostAddr.take hostAddrLen
              portStr := copyPort hostAddr portStr portPtr pathPtr
              request := requestAt hostAddr pathPtr }

/-- `webclient_resolve_address` behind the protocol, for a host in brackets
and one without. -/
def resolveHost (urlLen : ℕ) (hostAddr : List UInt8) (portStr : Block 6) : Option Address :=
  if hostAddr.head? = some 91 then
    let hostAddr := hostAddr.tail
    match strstr [93] hostAddr with
    | none => none
    | some hostAddrLen => resolveParts urlLen hostAddr hostAddrLen portStr
  else resolveParts urlLen hostAddr 0 portStr

/-- `webclient_resolve_address`: the parts of a URL, or `none` where its
protocol is neither of the two. -/
def resolveAddress (url : List UInt8) : Option Address :=
  if (utf8 "http://").isPrefixOf url then
    resolveHost url.length (url.drop 7) (portInit (utf8 "80") (by decide))
  else if (utf8 "https://").isPrefixOf url then
    resolveHost url.length (url.drop 8) (portInit (utf8 "443") (by decide))
  else none

end Http

end WeatherTerminal
