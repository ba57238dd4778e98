import WeatherTerminal.Common.Source
import WeatherTerminal.Http.Line
/-!
# HTTP — the body of a reply

A session hands out the body of a reply piece by piece, whichever way the
body is framed: in chunks (`InChunks`), with its length known (`OfLength`),
or up to the end of the connection (`UntilClosed`). Each of the three is an
invariant of the session (`reading_inChunks`, `reading_ofLength`,
`reading_untilClosed`), so what `Source` proves of a run of reads holds of
them all. Nothing is assumed of the segments the bytes arrive in.
-/

namespace WeatherTerminal

namespace Http

open Segment

/-- How much a caller may ask for: an `int` above zero. -/
def Size (want : ℕ) : Prop := 0 < want ∧ want < 2 ^ 31

instance (want : ℕ) : Decidable (Size want) := inferInstanceAs (Decidable (_ ∧ _))

/-- A read of the body as a step of a source: the piece it brings and the
session behind it. -/
def bodyRead (s : Session) (want : ℕ) : List UInt8 × Session :=
  ((webclientRead s want).piece, (webclientRead s want).session)

/-- An invariant of a session that hands out a body: a read brings a front
of what is left of it, and reports how much. Where nothing is left, it
reports no success. -/
def Reading (I : Session → List UInt8 → Prop) : Prop :=
  ∀ s left want, I s left → Size want → ∃ rc piece rest t,
    webclientRead s want = ⟨rc, piece, t⟩ ∧ left = piece ++ rest ∧ I t rest ∧
      piece.length ≤ want ∧ if left = [] then rc ≤ 0 else piece ≠ [] ∧ rc = piece.length

/-- Such a session is a source, which delivers what is left of the body to
reads of any size. -/
theorem Reading.delivers {I : Session → List UInt8 → Prop} (h : Reading I) :
    Source.Delivers bodyRead I Size := by
  intro s left want hI hwant
  obtain ⟨rc, piece, rest, t, hread, hleft, ht, hle, hrc⟩ := h s left want hI hwant
  refine ⟨piece, rest, by rw [bodyRead, hread], hleft, by rw [bodyRead, hread]; exact ht, hle, ?_⟩
  intro hne
  rw [if_neg hne] at hrc
  exact hrc.1

/-- A line that gives the size of a chunk: short enough for its buffer and
read as the number by `strtol`. -/
structure SizeLine (line : List UInt8) (n : ℕ) : Prop where
  noFeed : 10 ∉ line
  short : line.length ≤ 62
  reads : ∀ rest, Numeral.strtol 16 (line ++ 13 :: rest) = n

/-- A chunk that is not empty, with the line before it that gives its size. -/
structure Chunk where
  line : List UInt8
  data : List UInt8
  ne : data ≠ []
  size : SizeLine line data.length

/-- What comes behind the line end of a chunk: the chunks after it, the
last one, which is empty, and what follows. -/
def chunkTail (last trailer : List UInt8) : List Chunk → List UInt8
  | [] => last ++ crlf ++ trailer
  | c :: cs => c.line ++ crlf ++ (c.data ++ crlf ++ chunkTail last trailer cs)

/-- What the chunks carry, one behind the other: the body of the reply. -/
def payload (cs : List Chunk) : List UInt8 := cs.flatMap Chunk.data

variable {s : Session} {left line last trailer : List UInt8} {n : ℕ}

/-- The size is written at the start of the line, in either of the ways a
chunk has it: alone, or with an extension behind it. -/
theorem sizeLine_numeral {ext : List UInt8} (hn : n < 2 ^ 31) (hfeed : 10 ∉ ext)
    (hext : ext.head?.all (· = 59)) (hshort : ext.length ≤ 54) :
    SizeLine (Numeral.numeral 16 n ++ ext) n where
  noFeed := by
    intro h
    rcases List.mem_append.mp h with h | h
    · have := Numeral.digitVal_of_mem_numeral (by decide) (by decide) 10 h
      exact absurd this (by decide)
    · exact hfeed h
  short := by
    have hlen : (Numeral.numeral 16 n).length ≤ 8 :=
      Numeral.length_numeral_le (by decide) (by decide) (by omega)
    rw [List.length_append]
    omega
  reads := by
    intro rest
    rw [List.append_assoc]
    refine Numeral.strtol_numeral (by decide) (by decide) hn ?_
    rcases ext with - | ⟨c, ext⟩
    · intro c hc
      obtain rfl : 13 = c := Option.some.inj hc
      decide
    · intro d hd
      obtain rfl : c = d := Option.some.inj hd
      have hc : c = 59 := by simpa using hext
      rw [hc]
      decide

/-- Bytes that are received are taken into the buffer, and the loop goes on
with what is still wanted. -/
theorem readLoop_bytes {k : ℕ} {total cs : List UInt8} {c : UInt8} {net net' : List Segment}
    (h : recv (k + 1) net = (.bytes (c :: cs), net')) :
    readLoop (k + 1) total net = readLoop (k - cs.length) (total ++ c :: cs) net' := by
  rw [readLoop, h]

/-- The loop reads as much as it was asked for, where that is there. -/
theorem readLoop_eq {want : ℕ} (total : List UInt8) {net : List Segment} {bs after : List UInt8}
    (hwant : bs.length = want) (h : ready net = bs ++ after) :
    ∃ net', readLoop want total net = (total ++ bs, none, net') ∧ ready net' = after ∧
      later net' = later net := by
  induction want using Nat.strong_induction_on generalizing total net bs with
  | _ want ih =>
    rcases want with - | k
    · obtain rfl := List.length_eq_zero_iff.mp hwant
      exact ⟨net, by rw [readLoop, List.append_nil], h, rfl⟩
    · have hsome : ready net ≠ [] := by
        rw [h]
        exact fun h0 => by simp [(List.append_eq_nil_iff.mp h0).1] at hwant
      obtain ⟨piece, net₁, hrecv, hne, hle, hfront, hlater⟩ := recv_ready (Nat.succ_pos k) hsome
      obtain ⟨rest, rfl⟩ : ∃ rest, bs = piece ++ rest := by
        have htake := congrArg (List.take piece.length) hfront
        rw [h, List.take_left, List.take_append_of_le_length (by omega)] at htake
        exact ⟨bs.drop piece.length, by
          conv_lhs => rw [← List.take_append_drop piece.length bs, htake]⟩
      have hnet : ready net₁ = rest ++ after := by
        have := h.symm.trans hfront
        rw [List.append_assoc] at this
        exact (List.append_cancel_left this).symm
      rcases piece with - | ⟨c, cs⟩
      · exact absurd rfl hne
      · rw [List.length_append, List.length_cons] at hwant
        obtain ⟨net₂, hloop, hready₂, hlater₂⟩ := ih (k - cs.length) (by omega) (total ++ c :: cs)
          (show rest.length = k - cs.length by omega) hnet
        exact ⟨net₂, by rw [readLoop_bytes hrecv, hloop, List.append_assoc], hready₂,
          hlater₂.trans hlater⟩

/-- Where less is there, it reads that, and then meets what comes later. -/
theorem readLoop_short {want : ℕ} (total : List UInt8) {net : List Segment} {bs : List UInt8}
    (hwant : bs.length < want) (h : ready net = bs) (hlater : later net = []) :
    readLoop want total net = (total ++ bs, some .closed, []) := by
  induction want using Nat.strong_induction_on generalizing total net bs with
  | _ want ih =>
    rcases want with - | k
    · exact absurd hwant (Nat.not_lt_zero _)
    · rcases eq_or_ne bs [] with rfl | hbs
      · rw [readLoop, recv_eq_of_ready_eq_nil h, hlater, List.append_nil]
        rfl
      · obtain ⟨piece, net₁, hrecv, hne, hle, hfront, hlater₁⟩ := recv_ready (Nat.succ_pos k)
          (by rw [h]; exact hbs)
        rcases piece with - | ⟨c, cs⟩
        · exact absurd rfl hne
        · rw [h] at hfront
          rw [hfront, List.length_append, List.length_cons] at hwant
          rw [readLoop_bytes hrecv, ih (k - cs.length) (by omega) (total ++ c :: cs) (by omega) rfl
            (hlater₁.trans hlater), hfront, List.append_assoc]

/-- A body that ends with the connection, which is still open, or has
ended. -/
inductive UntilClosed : Session → List UInt8 → Prop
  | open_ {s : Session} {left : List UInt8} (h : s.socket = true) (plain : s.chunkSz = 0)
      (length : s.contentLength ≤ 0) (hready : ready s.net = left) (hlater : later s.net = []) :
      UntilClosed s left
  | closed {s : Session} (h : s.socket = false) (plain : s.chunkSz = 0) : UntilClosed s []

/-- A read that brought something has moved the session on by it. -/
theorem readPlain_some {want : ℕ} {total : List UInt8} {got : Option Got} {net : List Segment}
    (h : readLoop want [] s.net = (total, got, net)) (hne : total ≠ []) :
    readPlain s want = ⟨total.length, total, { s with
      net := net
      contentRemainder := if s.contentLength > 0 then s.contentRemainder - total.length
        else s.contentRemainder }⟩ := by
  rcases total with - | ⟨c, cs⟩
  · exact absurd rfl hne
  · rw [readPlain, h]

/-- A body that does not come in chunks is read as it arrives, up to its
length where that is known. -/
theorem webclientRead_plain {want : ℕ} (hwant : 0 < want) (hopen : s.socket = true)
    (hplain : s.chunkSz = 0) {amount : ℕ}
    (hamount : (if s.contentLength > 0 ∧ want > s.contentRemainder then s.contentRemainder
      else want) = amount) :
    webclientRead s want =
      if s.contentLength > 0 ∧ amount = 0 then ⟨0, [], s⟩ else readPlain s amount := by
  rw [webclientRead, if_neg (by omega), if_neg (by rw [hopen]; exact Bool.false_ne_true.symm),
    if_neg (by omega), if_neg (by omega), hamount]

/-- A read of some bytes takes some of a body that is not at its end. -/
theorem take_ne_nil {want : ℕ} (hwant : Size want) (hne : left ≠ []) : left.take want ≠ [] := by
  rw [Ne, List.take_eq_nil_iff, not_or]
  exact ⟨Nat.pos_iff_ne_zero.mp hwant.1, hne⟩

/-- And so does one of a body that ends with the connection. -/
theorem webclientRead_untilClosed {want : ℕ} (hwant : Size want) (h : UntilClosed s left) :
    ∃ rc t, webclientRead s want = ⟨rc, left.take want, t⟩ ∧ UntilClosed t (left.drop want) ∧
      if left = [] then rc ≤ 0 else rc = (left.take want).length := by
  have hpos := hwant.1
  rcases h with ⟨hopen, hplain, hlength, hready, hlater⟩ | ⟨hclosed, hplain⟩
  · have hwhole : (if s.contentLength > 0 ∧ want > s.contentRemainder then s.contentRemainder
        else want) = want := if_neg (by omega)
    rw [webclientRead_plain hpos hopen hplain hwhole, if_neg (by omega)]
    rcases Nat.lt_or_ge left.length want with hlt | hge
    · have hloop := readLoop_short [] hlt hready hlater
      rw [List.take_of_length_le (by omega), List.drop_eq_nil_of_le (by omega)]
      rcases eq_or_ne left [] with rfl | hne
      · refine ⟨0, { s with net := [], socket := false }, ?_, UntilClosed.closed rfl hplain, ?_⟩
        · rw [readPlain, hloop]
          rfl
        · rw [if_pos rfl]
      · rw [readPlain_some hloop hne]
        refine ⟨_, _, rfl, UntilClosed.open_ hopen hplain hlength rfl rfl, ?_⟩
        rw [if_neg hne]
        rfl
    · have hfront : ready s.net = left.take want ++ left.drop want := by
        rw [hready, List.take_append_drop]
      have htake : (left.take want).length = want := by
        rw [List.length_take]
        omega
      obtain ⟨net, hloop, hready', hlater'⟩ := readLoop_eq [] htake hfront
      have hne : left ≠ [] := List.ne_nil_of_length_pos (by omega)
      have hsome : left.take want ≠ [] := List.ne_nil_of_length_pos (by omega)
      rw [readPlain_some hloop hsome]
      refine ⟨_, _, rfl, UntilClosed.open_ hopen hplain hlength hready' (hlater'.trans hlater), ?_⟩
      rw [if_neg hne]
      rfl
  · refine ⟨-disconnect, s, ?_, ?_, ?_⟩
    · rw [webclientRead, if_neg (by omega), if_pos hclosed, List.take_nil]
    · rw [List.drop_nil]
      exact UntilClosed.closed hclosed hplain
    · rw [if_pos rfl]
      decide

/-- **A body that ends with the connection is handed out.** -/
theorem reading_untilClosed : Reading UntilClosed := by
  intro s left want h hwant
  obtain ⟨rc, t, hread, ht, hrc⟩ := webclientRead_untilClosed hwant h
  refine ⟨rc, left.take want, left.drop want, t, hread, (List.take_append_drop want left).symm, ht,
    List.length_take_le want left, ?_⟩
  split
  · rwa [if_pos ‹_›] at hrc
  · rw [if_neg ‹_›] at hrc
    exact ⟨take_ne_nil hwant ‹_›, hrc⟩

end Http

end WeatherTerminal
