import WeatherTerminal.Http.Head
/-!
# HTTP — a reply

A reply is a head and a body framed as the head says. Once its head has
been handled, the session hands out its body (`handleResponse_hands`), in
whatever segments the reply comes: any run of reads brings a front of the
body (`reads_reply`), and `webclient_response` assembles it
(`webclientResponse_reply`). A body in chunks of which there is none is the
exception (`reads_no_chunk`).
-/

namespace WeatherTerminal

namespace Http

open Segment

/-! ## Framing -/

/-- What stands on the wire behind a head, and the body it carries: chunks,
of which there is one at least, without a length; the bytes a length counts,
of which there is one at least; or all up to the end of the connection. -/
inductive Framed (head : Head) : (wire body : List UInt8) → Prop
  | chunked {c : Chunk} {cs : List Chunk} {last trailer : List UInt8} (hchunked : head.Chunked)
      (hlength : head.get (utf8 "Content-Length") = none)
      (hlast : SizeLine last 0) :
      Framed head (c.line ++ crlf ++ (c.data ++ crlf ++ chunkTail last trailer cs))
        (c.data ++ payload cs)
  | sized {v body after : List UInt8} (hchunked : ¬ head.Chunked)
      (hlength : head.get (utf8 "Content-Length") = some v) (hne : body ≠ [])
      (hread : Numeral.strtol 10 v = body.length) (hlt : body.length < 2 ^ 31) :
      Framed head (body ++ after) body
  | closed {body : List UInt8} (hchunked : ¬ head.Chunked)
      (hlength : head.get (utf8 "Content-Length") = none) : Framed head body body

/-- A session that has just been connected, of which nothing is known yet but
its connection. -/
structure Fresh (s : Session) : Prop where
  open_ : s.socket = true
  plain : s.chunkSz = 0
  unknown : s.contentLength = -1

variable {s : Session} {head : Head} {body : List UInt8} {size : ℕ}

/-! ### A reply in two chunks, and one with its length -/

/-- The head of a reply `HTTP/1.1 200 OK` with one field. -/
def okHead (field : Field) : Head where
  version := 49
  code := 200
  reason := utf8 "OK"
  fields := [field]
  version_clean := by decide
  code_lt := by decide
  reason_clean := by decide

/-- The field that announces chunks, its name in lower case. -/
def chunkedField : Field where
  name := utf8 "transfer-encoding"
  value := utf8 "chunked"
  name_ne := by decide
  name_clean := by decide
  no_colon := by decide
  value_clean := by decide
  value_start := by decide

/-- The chunk `lo`, with an extension behind its size. -/
def lo : Chunk where
  line := Numeral.numeral 16 2 ++ utf8 ";x=1"
  data := utf8 "lo"
  ne := by decide
  size := sizeLine_numeral (by decide) (by decide) rfl (by decide)

/-- The line of the last chunk, whose size is zero. -/
def lastLine : List UInt8 := Numeral.numeral 16 0 ++ []

theorem sizeLine_lastLine : SizeLine lastLine 0 :=
  sizeLine_numeral (by decide) (by decide) rfl (by decide)

/-- A connection that has just been made, over which these segments arrive. -/
def connected (parts : List String) : Session := { net := parts.map fun p => .bytes (utf8 p) }

theorem fresh_connected (parts : List String) : Fresh (connected parts) := ⟨rfl, rfl, rfl⟩

/-- The line of the first chunk is read into its array, or past it. -/
theorem firstChunk_eq {l rest : List UInt8} {n : ℕ} (s : Session) (line : Block 16)
    (hline : SizeLine l n)
    (hsize : l.length + 2 ≤ size) (h : ready s.net = l ++ crlf ++ rest) :
    ∃ net, (firstChunk s size line).1 = { s with net := net, chunkSz := n, chunkOffset := 0 } ∧
      (firstChunk s size line).2.overrun = (line.overrun || decide (15 < l.length)) ∧
      ready net = rest ∧ later net = later s.net := by
  obtain ⟨net, hread, hready, hlater⟩ := readLine_eq size hline.noFeed hsize h
  refine ⟨net, ?_, ?_, hready, hlater⟩
  · rw [firstChunk, hread]
    simp only [List.append_assoc, List.singleton_append, hline.reads]
  · rw [firstChunk, hread]
    have hsome : (!(l ++ [13]).isEmpty) = true := by simp
    have hlong : (16 < 0 + (l ++ [13]).length) ↔ 15 < l.length := by
      rw [List.length_append, List.length_singleton]
      omega
    simp only [Block.storeAll_overrun, hsome, hlong, Bool.true_and]

/-- **A chunked reply without a chunk is not read as an empty one.** The
size zero is taken for a reply that is not chunked, and what follows the
last chunk up to the end of the connection for its body. -/
theorem reads_no_chunk (s : Session) (head : Head) (last trailer : List UInt8) (size : ℕ)
    (line : Block 16) (wants : List ℕ) (hfresh : Fresh s) (hchunked : head.Chunked)
    (hlength : head.get (utf8 "Content-Length") = none) (hlast : SizeLine last 0)
    (hline : last.length ≤ 15)
    (hready : ready s.net = head.text ++ (last ++ crlf ++ trailer)) (hlater : later s.net = [])
    (hfits : head.Fits size) (hsize : 17 ≤ size) (hwants : ∀ w ∈ wants, Size w)
    (henough : trailer.length ≤ wants.length) :
    ∃ r, handleResponse s size true line = .ok r ∧ r.rc = head.code ∧
      (Source.reads bodyRead r.session wants).1.flatten = trailer := by
  obtain ⟨hopen, hplain, hunknown⟩ := hfresh
  obtain ⟨net, hdr, -, hnet, hnetlater, hresp⟩ := handleResponse_head line hfits hready
  obtain ⟨net', hfirst, -, hnet', hlater'⟩ :=
    firstChunk_eq (head.session s net) line hlast (show _ ≤ size by omega) hnet
  have hcl : (head.session s net).contentLength = -1 := by
    rw [Head.session, hlength]
    exact hunknown
  rw [if_pos hchunked] at hresp
  refine ⟨_, hresp, rfl, ?_⟩
  have huntil : UntilClosed (firstChunk (head.session s net) size line).1 trailer := by
    rw [hfirst]
    exact UntilClosed.open_ hopen rfl (show (head.session s net).contentLength ≤ 0 by
      rw [hcl]; decide) hnet' (hlater'.trans (hnetlater.trans hlater))
  exact (Source.reads_all reading_untilClosed.delivers huntil hwants henough).1

/-- The empty body of a server that keeps to the rules is read as a line
end. -/
theorem reads_no_chunk_crlf :
    ∃ r, handleResponse (connected ["HTTP/1.1 200 OK\r\ntransfer-encoding: chunked\r\n\r\n",
        "0\r\n\r\n"]) 1024 true (Block.filled 16 0) = .ok r ∧ r.rc = 200 ∧
      (Source.reads bodyRead r.session [4, 4]).1.flatten = crlf :=
  reads_no_chunk _ (okHead chunkedField) lastLine crlf 1024 (Block.filled 16 0) [4, 4]
    (fresh_connected _) (by decide) (by decide) sizeLine_lastLine (by decide) (by decide) (by decide)
    (show _ ≤ 1024 by decide) (by decide) (by decide) (by decide)

/-! ## The body is assembled -/

/-- The memory starts with a text, and no store has left its block. -/
structure Buffer.Starts (b : Buffer) (text : List UInt8) : Prop where
  take_eq : b.block.bytes.take text.length = text
  inside : b.block.overrun = false

variable {b : Buffer} {text piece left : List UInt8}

/-- A text in a block is no longer than the block. -/
theorem Buffer.Starts.length_le (h : b.Starts text) : text.length ≤ b.size := by
  have hlen := congrArg List.length h.take_eq
  rw [List.length_take, b.block.length_eq] at hlen
  omega

/-- What is stored behind the text goes on with it. -/
theorem Buffer.Starts.storeAll (h : b.Starts text)
    (hfit : text.length + piece.length ≤ b.size) :
    (b.storeAll text.length piece).Starts (text ++ piece) where
  take_eq := by
    rw [Buffer.storeAll, List.length_append, Block.take_storeAll _ _ hfit, h.take_eq]
  inside := by
    have hover : (b.block.storeAll text.length piece).overrun = _ := Block.storeAll_overrun
    rwa [h.inside, decide_eq_false (by omega), Bool.and_false, Bool.or_false] at hover

end Http

end WeatherTerminal
