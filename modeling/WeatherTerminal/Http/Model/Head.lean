import WeatherTerminal.Common.Fault
import WeatherTerminal.Http.Model.Session
/-!
# HTTP — reading the head of a reply

`webclient_handle_response`: the lines of the head are read into the
buffer of the header, each ended by a NUL, and the status, the length of
the body and its framing are looked up in it.
-/

namespace WeatherTerminal

namespace Http

/-! ## Searching -/

/-- `tolower` on a byte: the letters of the alphabet in lower case, and other
bytes as they are. -/
def toLower (c : UInt8) : UInt8 := if 65 ≤ c ∧ c ≤ 90 then c + 32 else c

/-- `webclient_strncasecmp(a, b, n) == 0` on two strings: they are the same
over `n` bytes but for their case. -/
def strncasecmpEq : ℕ → List UInt8 → List UInt8 → Bool
  | 0, _, _ => true
  | n + 1, a, b =>
      let c1 := toLower (a.headD 0)
      let c2 := toLower (b.headD 0)
      if c1 ≠ c2 then false else if c1 = 0 then true else strncasecmpEq n a.tail b.tail

/-- `webclient_strstri`: the offset of the first occurrence, whatever its
case, or `none`. -/
def strstri (subStr : List UInt8) : List UInt8 → Option ℕ
  | [] => none
  | c :: str =>
      if subStr = [] then none
      else if strncasecmpEq subStr.length (c :: str) subStr then some 0
      else (strstri subStr str).map (· + 1)

/-- `rt_strstr`: the offset of the first occurrence in the same case, or
`none`. -/
def strstr (s2 : List UInt8) : List UInt8 → Option ℕ
  | [] => if s2 = [] then some 0 else none
  | c :: s1 => if s2.isPrefixOf (c :: s1) then some 0 else (strstr s2 s1).map (· + 1)

/-- A blank, as the head has it between its parts. -/
def isBlank (c : UInt8) : Bool := c = 32 || c = 9

/-! ## The header -/

/-- `struct webclient_header`: the buffer of the header and how much of it is
in use. -/
structure Header (size : ℕ) where
  buffer : Block size
  length : ℕ

variable {size : ℕ}

/-- The loop of `webclient_header_fields_get`, at the line at `respBuf`, with
the bytes it has gone through. -/
def fieldsGetFrom (h : Header size) (fields : List UInt8) (respBuf respBufLen : ℕ) : Option ℕ :=
  if respBufLen < h.length then
    let text := h.buffer.cstr respBuf
    match if strstri fields text = some 0 then strstr [58] text else none with
    | some k => some (respBuf + (k + 1) + ((text.drop (k + 1)).takeWhile isBlank).length)
    | none =>
        if text = [] then none
        else
          let next := respBuf + (text.length + 1)
          -- the length of the line ahead is counted, not that of the line behind
          fieldsGetFrom h fields next (respBufLen + ((h.buffer.cstr next).length + 1))
  else none
termination_by h.length - respBufLen
decreasing_by omega

/-- `webclient_header_fields_get`: where the value of a field stands in the
buffer, or `none`. -/
def headerFieldsGet (h : Header size) (fields : List UInt8) : Option ℕ := fieldsGetFrom h fields 0 0

/-! ## The response -/

/-- What the loop over the head leaves; the buffer may have been too
small. -/
structure HeadRead (size : ℕ) where
  full : Bool
  rc : ℤ
  header : Header size
  net : List Segment

/-- The loop over the lines of the head, which ends at an empty line or where
the header is full. -/
def readHead (h : Header size) (net : List Segment) : HeadRead size :=
  let l := readLine (size - h.length) net
  let buffer := h.buffer.storeAll h.length l.stored
  if l.rc ≤ 0 then ⟨false, l.rc, { h with buffer := buffer }, l.net⟩
  -- the blank line
  else if l.rc = 1 ∧ l.stored = [13] then
    ⟨false, l.rc, { h with buffer := buffer.store h.length 0 }, l.net⟩
  else
    let buffer := buffer.store (h.length + l.rc.toNat - 1) 0
    if size ≤ h.length + l.rc.toNat then ⟨true, l.rc, ⟨buffer, h.length + l.rc.toNat⟩, l.net⟩
    else readHead ⟨buffer, h.length + l.rc.toNat⟩ l.net
termination_by size - h.length
decreasing_by
  rename_i hpos _ hfull
  change ¬ (readLine (size - h.length) net).rc ≤ 0 at hpos
  change ¬ size ≤ h.length + (readLine (size - h.length) net).rc.toNat at hfull
  show size - (h.length + (readLine (size - h.length) net).rc.toNat) < size - h.length
  omega

/-- The status in the copy of the first line: a number between blanks. The
search for the blank behind it does not stop at the end of the copy. -/
def statusCode (line : List UInt8) : Except Fault ℤ :=
  let ptr := ((line ++ [0]).drop 8).dropWhile isBlank
  if ptr.any isBlank then .ok (Numeral.strtol 10 (ptr.takeWhile (!isBlank ·)))
  else .error .overread

/-- The length of the body, where the head has one. -/
def lengthField (h : Header size) (contentLength : ℤ) : ℤ :=
  match headerFieldsGet h (utf8 "Content-Length") with
  | some p => Numeral.strtol 10 (h.buffer.cstr p)
  | none => contentLength

/-- The body is transferred in chunks, as `webclient_handle_response` compares
the field. -/
def isChunked (h : Header size) : Bool :=
  match headerFieldsGet h (utf8 "Transfer-Encoding") with
  | some p => h.buffer.cstr p = utf8 "chunked"
  | none => false

/-- What `webclient_handle_response` leaves: its result, the session, the
header and its array for the size of the first chunk. -/
structure Response (size : ℕ) where
  rc : ℤ
  session : Session
  header : Header size
  line : Block 16

/-- The size of the first chunk. The line is read with the size of the
header buffer for that of the array. -/
def firstChunk (s : Session) (size : ℕ) (line : Block 16) : Session × Block 16 :=
  let l := readLine size s.net
  let mem := l.stored ++ line.bytes.drop l.stored.length
  ({ s with net := l.net, chunkSz := Numeral.strtol 16 mem, chunkOffset := 0 },
    line.storeAll 0 l.stored)

/-- `webclient_handle_response`, the buffer of the header being cleared
first, and with the array as it finds it on the stack. -/
def handleResponse (s : Session) (size : ℕ) (dupGranted : Bool) (line : Block 16) :
    Except Fault (Response size) :=
  let r := readHead { buffer := Block.filled size 0, length := 0 } s.net
  let s := { s with net := r.net }
  if r.full then .ok ⟨-nomem, s, r.header, line⟩
  else if dupGranted = false then .ok ⟨-nomem, s, r.header, line⟩
  else do
    let h := r.header
    let status := h.buffer.cstr 0
    let respStatus ← if (strstr (utf8 "HTTP/1.") status).isSome then statusCode status
      else .ok s.respStatus
    let contentLength := lengthField h s.contentLength
    let contentRemainder := if contentLength ≠ 0 then (contentLength % 2 ^ 32).toNat else 0xFFFFFFFF
    let s := { s with respStatus := respStatus, contentLength := contentLength,
                      contentRemainder := contentRemainder }
    let (s, line) := if isChunked h then firstChunk s size line else (s, line)
    .ok ⟨if r.rc < 0 then r.rc else respStatus, s, h, line⟩

end Http

end WeatherTerminal
