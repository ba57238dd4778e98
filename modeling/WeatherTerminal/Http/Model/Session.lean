import WeatherTerminal.Common.Block
import WeatherTerminal.Common.Numeral
import WeatherTerminal.Common.Stream
/-!
# HTTP — reading the body of a reply

`webclient_read` and the functions under it: a body comes in chunks, or
with its length known, or until the connection is closed. What the socket
delivers is an input of the session.

A session knows of its socket whether it is open.
-/

namespace WeatherTerminal

namespace Http

/-- `WEBCLIENT_TIMEOUT`, negated where the network has not answered in time.
-/
abbrev timeout : ℤ := 2
/-- `WEBCLIENT_NOMEM`, negated where memory is out. -/
abbrev nomem : ℤ := 3
/-- `WEBCLIENT_DISCONNECT`, negated where the peer has closed the connection.
-/
abbrev disconnect : ℤ := 7

/-- `struct webclient_session`, less its header and the strings of the
request. -/
structure Session where
  net : List Segment
  socket : Bool := true
  respStatus : ℤ := 0
  chunkSz : ℤ := 0
  chunkOffset : ℤ := 0
  contentLength : ℤ := -1
  contentRemainder : ℕ := 0
deriving DecidableEq, Repr

/-! ## Lines -/

/-- What `webclient_read_line` leaves: its result, what it has stored, and
the stream. -/
structure Line where
  rc : ℤ
  stored : List UInt8
  net : List Segment
deriving DecidableEq, Repr

/-- The loop of `webclient_read_line`, with room for so many bytes more. -/
def readLineFrom (lastCh : UInt8) (stored : List UInt8) : ℕ → List Segment → Line
  | 0, net => ⟨stored.length, stored, net⟩
  | room + 1, net =>
      match Segment.recv 1 net with
      | (.bytes (ch :: _), net) =>
          if ch = 10 ∧ lastCh = 13 then ⟨stored.length, stored, net⟩
          else readLineFrom ch (stored ++ [ch]) room net
      | (.fail _, net) => ⟨-1, stored, net⟩
      | (_, net) => ⟨0, stored, net⟩

/-- `webclient_read_line`: a line of the reply, stored in a buffer of `size`
bytes. -/
def readLine (size : ℕ) (net : List Segment) : Line := readLineFrom 0 [] size net

/-! ## Chunks -/

/-- The size of the next chunk has been read from its line; one of zero is the
end of the body. -/
def startChunk (s : Session) (line : List UInt8) : Session :=
  let chunkSz := Numeral.strtol 16 line
  -- an empty chunk is the last one
  if chunkSz = 0 then { s with socket := false, chunkSz := -1, chunkOffset := 0 }
  else { s with chunkSz := chunkSz, chunkOffset := 0 }

/-- `webclient_next_chunk`. The line end behind a chunk is a line of its
own. -/
def nextChunk (s : Session) : Session :=
  let l := readLine 64 s.net
  let line := (Block.filled 64 0).storeAll 0 l.stored
  let s := { s with net := l.net }
  if l.rc ≤ 0 then { s with socket := false }
  else if line.cstr 0 = [13] then
    let l := readLine 64 s.net
    let line := line.storeAll 0 l.stored
    let s := { s with net := l.net }
    if l.rc ≤ 0 then { s with socket := false } else startChunk s line.bytes
  else startChunk s line.bytes

/-! ## Reading -/

/-- What a call of `webclient_read` leaves: its result, what it has written
to the start of the buffer, and the session. -/
structure Read where
  rc : ℤ
  piece : List UInt8
  session : Session
deriving DecidableEq, Repr

/-- A piece of the current chunk: as much as is asked for and as the chunk
still has. -/
def readChunk (s : Session) (length : ℕ) : Read :=
  let length := if Int.bmod length (2 ^ 32) > s.chunkSz - s.chunkOffset
    then (s.chunkSz - s.chunkOffset).toNat else length
  match Segment.recv length s.net with
  | (.bytes piece, net) =>
      let s := { s with net := net, chunkOffset := s.chunkOffset + piece.length }
      ⟨piece.length, piece, if s.chunkOffset ≥ s.chunkSz then nextChunk s else s⟩
  | (.fail true, net) => ⟨-timeout, [], { s with net := net }⟩
  | (_, net) => ⟨0, [], { s with net := net, socket := false }⟩

/-- The loop of `webclient_read`: what it has read, and the call that ended
it early, if one did. -/
def readLoop (left : ℕ) (total : List UInt8) (net : List Segment) :
    List UInt8 × Option Got × List Segment :=
  match left with
  | 0 => (total, none, net)
  | k + 1 =>
      match Segment.recv (k + 1) net with
      | (.bytes (c :: cs), net) => readLoop (k - cs.length) (total ++ c :: cs) net
      | (got, net) => (total, some got, net)
termination_by left
decreasing_by omega

/-- A piece of a body that is not chunked: as much as was asked for. -/
def readPlain (s : Session) (length : ℕ) : Read :=
  match readLoop length [] s.net with
  | ([], some (.fail true), net) => ⟨-timeout, [], { s with net := net }⟩
  | ([], some _, net) => ⟨0, [], { s with net := net, socket := false }⟩
  | (total, _, net) =>
      let remainder := if s.contentLength > 0 then s.contentRemainder - total.length
        else s.contentRemainder
      ⟨total.length, total, { s with net := net, contentRemainder := remainder }⟩

/-- `webclient_read`: a piece of the body, in chunks or not, of at most
`length` bytes. -/
def webclientRead (s : Session) (length : ℕ) : Read :=
  if s.chunkSz < 0 then ⟨0, [], s⟩
  else if s.socket = false then ⟨-disconnect, [], s⟩
  else if length = 0 then ⟨0, [], s⟩
  else if s.chunkSz ≠ 0 then readChunk s length
  else
    let length := if s.contentLength > 0 ∧ length > s.contentRemainder
      then s.contentRemainder else length
    if s.contentLength > 0 ∧ length = 0 then ⟨0, [], s⟩ else readPlain s length

/-! ## The whole body -/

/-- A block of the heap that is resized, and its size. -/
structure Buffer where
  size : ℕ
  block : Block size

/-- The null pointer, as the block that `web_realloc` makes larger. -/
def Buffer.empty : Buffer := ⟨0, Block.filled 0 0⟩

/-- A row of stores into the block, from an offset on. -/
def Buffer.storeAll (b : Buffer) (i : ℕ) (vs : List UInt8) : Buffer :=
  ⟨b.size, b.block.storeAll i vs⟩

end Http

end WeatherTerminal
