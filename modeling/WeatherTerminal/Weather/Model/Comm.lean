import WeatherTerminal.Common.Block
import Mathlib.Data.Int.Notation
/-!
# Weather — fetching a reply

`weather_get_comm`. What the network does is an input: a `Response` has a
body and a plan, the outcomes the reads meet one after the other, and
`webclientRead` hands out what the two allow. A plan that has run out is a
connection that was closed.
-/

namespace WeatherTerminal

namespace Weather

/-- `GET_RESP_BUFSZ`: the size of the buffer a reply is read into. -/
abbrev respBufsz : ℕ := 1200

/-! ## The network -/

/-- What a read meets: bytes that have arrived, a connection closed early, or
an error. -/
inductive Attempt
  /-- Up to `k` bytes have arrived; `recv 0` is a connection closed early. -/
  | recv (k : ℕ)
  /-- A timeout or an error: the read returns `-(code + 1)`. -/
  | fail (code : ℕ)
deriving DecidableEq, Repr

/-- How the end of a body is known: by its chunks, or by its length. -/
inductive Framing
  | chunked
  /-- With a Content-Length, that of the body. -/
  | sized
deriving DecidableEq, Repr

/-- A reply: its framing, its body, and what each read of it meets. -/
structure Response where
  framing : Framing
  body : List UInt8
  plan : List Attempt
deriving DecidableEq, Repr

/-- The outcome of one request: whether a session could be created, and
how the server answers. -/
structure Net where
  session : Bool
  status : ℤ
  response : Response
deriving DecidableEq, Repr

/-- `webclient_content_length_get`: the length of the body, or -1 where it is
not known. -/
def Response.contentLength (r : Response) : ℤ :=
  match r.framing with
  | .chunked => -1
  | .sized => r.body.length

/-- `webclient_read` of up to `length` bytes, of which `left` are still to
come: its result and the bytes it writes. -/
def webclientRead (left : List UInt8) (length : ℕ) : Option Attempt → ℤ × List UInt8
  | none => (0, [])
  | some (.recv k) => ((left.take (min k length)).length, left.take (min k length))
  | some (.fail code) => (-(code + 1), [])

/-! ## The fetch -/

/-- The globals the fetch works on, and its result code. -/
structure Comm where
  ret : ℤ
  bytesRead : ℤ
  buffer : Block respBufsz
deriving DecidableEq

/-- The loop over a chunked body: `bytes_read` and the buffer it leaves. -/
def readChunked (buffer : Block respBufsz) (left : List UInt8) :
    List Attempt → ℤ × Block respBufsz
  | [] => (0, buffer)
  | a :: plan =>
      let (bytesRead, piece) := webclientRead left respBufsz (some a)
      if bytesRead ≤ 0 then (bytesRead, buffer)
      -- each read lands at the start of the buffer
      else readChunked (buffer.storeAll 0 piece) (left.drop piece.length) plan

/-- How much the other loop asks for: what is still to come, and no more than
the buffer takes. -/
def request (contentLength contentPos : ℤ) : ℕ :=
  if contentLength - contentPos > respBufsz then respBufsz
  else (contentLength - contentPos).toNat

/-- The loop over a body of known length, each read being laid over the one
before it. -/
def readSized (contentLength : ℤ) (buffer : Block respBufsz) (left : List UInt8)
    (contentPos : ℤ) : List Attempt → ℤ × Block respBufsz
  | [] => (0, buffer)
  | a :: plan =>
      let (bytesRead, piece) := webclientRead left (request contentLength contentPos) (some a)
      if bytesRead ≤ 0 then (bytesRead, buffer)
      else
        let buffer := buffer.storeAll 0 piece
        if contentPos + bytesRead < contentLength then
          readSized contentLength buffer (left.drop piece.length) (contentPos + bytesRead) plan
        else (bytesRead, buffer)

/-- `RT_EOK`, which a call returns that has gone well. -/
abbrev rtEok : ℤ := 0
/-- `RT_ERROR`, as it is with `RT_USING_LIBC`. -/
abbrev rtError : ℤ := 255
/-- `RT_ENOMEM`, as it is with `RT_USING_LIBC`: the `ENOMEM` of the C library.
-/
abbrev rtEnomem : ℤ := 12

/-- `weather_get_comm`: what it returns, and what it leaves in `bytes_read`
and in the buffer. -/
def weatherGetComm (net : Net) (bytesRead : ℤ) (buffer : Block respBufsz) : Comm :=
  if net.session = false then { ret := -rtEnomem, bytesRead := bytesRead, buffer := buffer }
  else if net.status ≠ 200 then { ret := -rtError, bytesRead := bytesRead, buffer := buffer }
  else
    let r := net.response
    let (bytesRead, buffer) :=
      if r.contentLength < 0 then readChunked buffer r.body r.plan
      else readSized r.contentLength buffer r.body 0 r.plan
    { ret := rtEok, bytesRead := bytesRead, buffer := buffer }

end Weather

end WeatherTerminal
