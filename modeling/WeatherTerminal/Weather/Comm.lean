import WeatherTerminal.Weather.Model.Comm
import Mathlib.Tactic.Common
/-!
# Weather — what a fetch leaves in the buffer

Every read lands at the start of the buffer and replaces `bytes_read`, so
only a reply that arrives with the first read is assembled. The loops
report `ret = 0` for all the others as well.
-/

namespace WeatherTerminal

namespace Weather

variable {left body : List UInt8} {plan : List Attempt} {buffer : Block respBufsz}

/-- **A fetch that reports success has the whole body**, as the first
`bytes_read` bytes of the buffer. -/
def Assembled (c : Comm) (body : List UInt8) : Prop :=
  c.ret = rtEok → 0 ≤ c.bytesRead ∧ c.bytesRead ≤ respBufsz ∧
    c.buffer.bytes.take c.bytesRead.toNat = body

/-- The whole body arrives with the first read. A chunked one is read
again after it, and so has to be empty. -/
def ArrivesAtOnce (r : Response) : Prop :=
  r.body.length ≤ respBufsz ∧ (r.framing = .chunked → r.body = []) ∧
    match r.plan with
    | [] => r.body = []
    | .recv k :: _ => r.body.length ≤ k
    | .fail _ :: _ => False

/-! ## The reads -/

/-- A read returns no more than is left of the body. -/
theorem webclientRead_le (left : List UInt8) (length : ℕ) (a : Option Attempt) :
    (webclientRead left length a).1 ≤ left.length := by
  rcases a with - | k | code
  · simp [webclientRead]
  · simp only [webclientRead, List.length_take]
    omega
  · simp only [webclientRead]
    omega

/-- A read that fails returns its code and brings nothing of the body. -/
theorem webclientRead_fail (left : List UInt8) (length code : ℕ) :
    webclientRead left length (some (.fail code)) = (-((code : ℤ) + 1), []) := rfl

/-- What a read returns is the length of the piece that it brings. -/
theorem webclientRead_piece {length : ℕ} {a : Option Attempt}
    (h : 0 < (webclientRead left length a).1) :
    ((webclientRead left length a).2.length : ℤ) = (webclientRead left length a).1 := by
  rcases a with - | k | code
  · simp [webclientRead] at h
  · rfl
  · simp only [webclientRead] at h
    omega

/-- One read of a chunked body: the loop ends where it brings nothing, and
goes on behind its piece else. -/
theorem readChunked_cons (a : Attempt) : readChunked buffer left (a :: plan) =
    if (webclientRead left respBufsz (some a)).1 ≤ 0
    then ((webclientRead left respBufsz (some a)).1, buffer)
    else readChunked (buffer.storeAll 0 (webclientRead left respBufsz (some a)).2)
      (left.drop (webclientRead left respBufsz (some a)).2.length) plan := rfl

/-- One read of a body of known length, which is asked for what is still to
come. -/
theorem readSized_cons {contentLength contentPos : ℤ} {a : Attempt} {r : ℤ}
    {piece : List UInt8}
    (h : webclientRead left (request contentLength contentPos) (some a) = (r, piece)) :
    readSized contentLength buffer left contentPos (a :: plan) =
      if r ≤ 0 then (r, buffer)
      else if contentPos + r < contentLength then
        readSized contentLength (buffer.storeAll 0 piece) (left.drop piece.length)
          (contentPos + r) plan
      else (r, buffer.storeAll 0 piece) := by
  rw [readSized, h]

/-- The chunked loop leaves by a read that brought nothing. -/
theorem readChunked_nonpos : (readChunked buffer left plan).1 ≤ 0 := by
  induction plan generalizing buffer left with
  | nil => exact Int.le_refl 0
  | cons a plan ih =>
      rw [readChunked_cons]
      split
      · assumption
      · exact ih

/-- The other one by a read of no more than was still to come. -/
theorem readSized_le {contentLength contentPos : ℤ} :
    (readSized contentLength buffer left contentPos plan).1 ≤ left.length := by
  induction plan generalizing buffer left contentPos with
  | nil => exact Int.natCast_nonneg _
  | cons a plan ih =>
      have hread := webclientRead_le left (request contentLength contentPos) (some a)
      rcases hr : webclientRead left (request contentLength contentPos) (some a) with ⟨r, piece⟩
      rw [hr] at hread
      rw [readSized_cons hr]
      split
      · exact hread
      split
      · refine Int.le_trans ih ?_
        rw [List.length_drop]
        omega
      · exact hread

/-- A first read that brings the whole body is the last one. -/
theorem readSized_at_once {k : ℕ} (plan : List Attempt) (buffer : Block respBufsz)
    (hk : body.length ≤ k) (hfit : body.length ≤ respBufsz) :
    ∃ b, readSized body.length buffer body 0 (.recv k :: plan) = ((body.length : ℤ), b) ∧
      b.bytes.take body.length = body := by
  have hreq : request body.length 0 = body.length := by
    rw [request, if_neg (by omega)]
    omega
  have hread : webclientRead body (request body.length 0) (some (.recv k)) =
      ((body.length : ℤ), body) := by
    rw [hreq, webclientRead, List.take_of_length_le (by omega)]
  rw [readSized_cons hread]
  split
  · rename_i hle
    obtain rfl : body = [] := List.length_eq_zero_iff.mp (by omega)
    exact ⟨buffer, rfl, rfl⟩
  · rw [if_neg (by omega)]
    refine ⟨_, rfl, ?_⟩
    have hstored : ((buffer.storeAll 0 body).bytes.drop 0).take body.length = body :=
      Block.take_drop_storeAll (by omega)
    rwa [List.drop_zero] at hstored

/-- A first read that brings less than the body is forgotten, the next being
laid over it. -/
theorem readSized_in_pieces {a : Attempt} {k : ℕ} (ha : a = .recv k)
    (hless : k < body.length ∨ respBufsz < body.length) :
    (readSized body.length buffer body 0 (a :: plan)).1 < body.length := by
  subst ha
  have hread : (webclientRead body (request body.length 0) (some (.recv k))).1 < body.length := by
    simp only [webclientRead, List.length_take]
    rcases hless with h | h
    · omega
    · have : request body.length 0 = respBufsz := by
        rw [request, if_pos (by omega)]
      omega
  rcases hr : webclientRead body (request body.length 0) (some (.recv k)) with ⟨r, piece⟩
  rw [hr] at hread
  rw [readSized_cons hr]
  split
  · exact hread
  rename_i hpos
  have hpiece : (piece.length : ℤ) = r := by
    have := webclientRead_piece (by rw [hr]; exact Int.not_le.mp hpos)
    rwa [hr] at this
  split
  · refine Int.lt_of_le_of_lt readSized_le ?_
    rw [List.length_drop]
    omega
  · exact hread

/-! ## The pieces of a body -/

/-- The pieces a body comes in, read by read, and the result of the last
read. A body of known length ends with the piece that completes it, a
chunked one with a read that brings nothing. -/
def pieces (framing : Framing) : List UInt8 → List Attempt → List (List UInt8) × ℤ
  | _, [] => ([], 0)
  | _, .fail code :: _ => ([], -(code + 1))
  | left, .recv k :: plan =>
      let piece := left.take (min k respBufsz)
      let rest := left.drop (min k respBufsz)
      if piece = [] then ([], 0)
      else if framing = .sized ∧ rest = [] then ([piece], piece.length)
      else (piece :: (pieces framing rest plan).1, (pieces framing rest plan).2)

/-- What pieces leave in a buffer: each is laid over those before it, from
the start. -/
def laidOver (buffer : Block respBufsz) (ps : List (List UInt8)) : Block respBufsz :=
  ps.foldl (fun buffer piece => buffer.storeAll 0 piece) buffer

variable {framing : Framing} {k : ℕ}

theorem pieces_none (h : left.take (min k respBufsz) = []) :
    pieces framing left (.recv k :: plan) = ([], 0) := by
  rw [pieces, if_pos h]

/-- A read that brings all that is left of a body of known length is the last
one. -/
theorem pieces_last (h : left.take (min k respBufsz) ≠ [])
    (hrest : left.drop (min k respBufsz) = []) :
    pieces .sized left (.recv k :: plan) =
      ([left.take (min k respBufsz)], ((left.take (min k respBufsz)).length : ℤ)) := by
  rw [pieces, if_neg h, if_pos ⟨rfl, hrest⟩]

/-- A read that brings some of it is followed by the others. -/
theorem pieces_more (h : left.take (min k respBufsz) ≠ [])
    (hmore : framing = .sized → left.drop (min k respBufsz) ≠ []) :
    pieces framing left (.recv k :: plan) =
      (left.take (min k respBufsz) :: (pieces framing (left.drop (min k respBufsz)) plan).1,
        (pieces framing (left.drop (min k respBufsz)) plan).2) := by
  rw [pieces, if_neg h, if_neg fun hlast => hmore hlast.1 hlast.2]

/-- What is still to come behind a piece, whatever was asked for. -/
theorem drop_length_take (left : List UInt8) (k : ℕ) :
    left.drop (left.take k).length = left.drop k := by
  rw [List.length_take]
  rcases Nat.le_total k left.length with h | h
  · rw [Nat.min_eq_left h]
  · rw [Nat.min_eq_right h, List.drop_length, List.drop_of_length_le h]

/-- **The loop over a chunked body** lays its pieces over each other. -/
theorem readChunked_eq (buffer : Block respBufsz) (left : List UInt8) (plan : List Attempt) :
    readChunked buffer left plan =
      ((pieces .chunked left plan).2, laidOver buffer (pieces .chunked left plan).1) := by
  induction plan generalizing buffer left with
  | nil => rfl
  | cons a plan ih =>
      rcases a with k | code
      · have hread : webclientRead left respBufsz (some (.recv k)) =
            (((left.take (min k respBufsz)).length : ℤ), left.take (min k respBufsz)) := rfl
        rw [readChunked_cons, hread]
        simp only
        by_cases hnil : left.take (min k respBufsz) = []
        · rw [pieces_none hnil, hnil]
          rfl
        · have hpos : 0 < (left.take (min k respBufsz)).length := List.length_pos_iff.mpr hnil
          rw [if_neg (by omega), pieces_more hnil fun h => Framing.noConfusion h, ih,
            drop_length_take]
          rfl
      · rw [readChunked_cons, webclientRead_fail]
        simp only
        rw [if_pos (by omega)]
        rfl

/-- **The loop over a body of known length** does so as well. -/
theorem readSized_eq {contentLength contentPos : ℤ} (buffer : Block respBufsz)
    (left : List UInt8) (plan : List Attempt) (hleft : contentLength - contentPos = left.length) :
    readSized contentLength buffer left contentPos plan =
      ((pieces .sized left plan).2, laidOver buffer (pieces .sized left plan).1) := by
  induction plan generalizing buffer left contentPos with
  | nil => rfl
  | cons a plan ih =>
      rcases a with k | code
      · have hpiece : left.take (min k (request contentLength contentPos)) =
            left.take (min k respBufsz) := by
          rw [request]
          split
          · rfl
          · rw [hleft, Int.toNat_natCast, List.take_eq_take_iff]
            omega
        have hread : webclientRead left (request contentLength contentPos) (some (.recv k)) =
            (((left.take (min k respBufsz)).length : ℤ), left.take (min k respBufsz)) := by
          rw [webclientRead, hpiece]
        rw [readSized_cons hread]
        by_cases hnil : left.take (min k respBufsz) = []
        · rw [pieces_none hnil, hnil]
          rfl
        have hpos : 0 < (left.take (min k respBufsz)).length := List.length_pos_iff.mpr hnil
        have hsplit : (left.take (min k respBufsz)).length +
            (left.drop (min k respBufsz)).length = left.length := by
          rw [← List.length_append, List.take_append_drop]
        rw [if_neg (by omega)]
        by_cases hrest : left.drop (min k respBufsz) = []
        · rw [hrest, List.length_nil] at hsplit
          rw [if_neg (by omega), pieces_last hnil hrest]
          rfl
        · have hmore : 0 < (left.drop (min k respBufsz)).length := List.length_pos_iff.mpr hrest
          rw [if_pos (by omega), pieces_more hnil fun _ => hrest, drop_length_take,
            ih _ _ (by omega)]
          rfl
      · rw [readSized_cons (webclientRead_fail left _ code), if_pos (by omega)]
        rfl

/-! ## The fetch -/

/-- With a session and the status 200 the body is read, by the loop its
framing asks for. -/
theorem weatherGetComm_ok (r : Response) (bytesRead : ℤ) (buffer : Block respBufsz) :
    weatherGetComm { session := true, status := 200, response := r } bytesRead buffer =
      { ret := rtEok
        bytesRead := (match r.framing with
          | .chunked => readChunked buffer r.body r.plan
          | .sized => readSized r.body.length buffer r.body 0 r.plan).1
        buffer := (match r.framing with
          | .chunked => readChunked buffer r.body r.plan
          | .sized => readSized r.body.length buffer r.body 0 r.plan).2 } := by
  rw [weatherGetComm, if_neg (by simp), if_neg (by simp)]
  cases hr : r.framing with
  | chunked => simp [Response.contentLength, hr]
  | sized =>
      have : ¬ (r.body.length : ℤ) < 0 := by omega
      simp [Response.contentLength, hr, this]

/-- **What a fetch leaves** are the pieces of the body, and the result of
the last read. -/
theorem weatherGetComm_pieces (r : Response) (bytesRead : ℤ) (buffer : Block respBufsz) :
    weatherGetComm { session := true, status := 200, response := r } bytesRead buffer =
      { ret := rtEok
        bytesRead := (pieces r.framing r.body r.plan).2
        buffer := laidOver buffer (pieces r.framing r.body r.plan).1 } := by
  rw [weatherGetComm_ok]
  cases r.framing with
  | chunked => rw [readChunked_eq]
  | sized => rw [readSized_eq buffer r.body r.plan (Int.sub_zero _)]

/-- A fetch whose last read brought fewer bytes than the body has is not
assembled. -/
theorem not_assembled_of_lt {c : Comm} (hret : c.ret = rtEok) (hlt : c.bytesRead < body.length) :
    ¬ Assembled c body := by
  intro h
  obtain ⟨hnonneg, -, htake⟩ := h hret
  have := congrArg List.length htake
  rw [List.length_take] at this
  omega

/-- **A 200 reply is assembled exactly where it arrives at once.** In
every other case `weather_get_comm` still returns 0, over a buffer that
does not start with the body or a `bytes_read` that is not its length. -/
theorem weatherGetComm_assembled (r : Response) (bytesRead : ℤ) (buffer : Block respBufsz) :
    Assembled (weatherGetComm { session := true, status := 200, response := r } bytesRead buffer)
      r.body ↔ ArrivesAtOnce r := by
  obtain ⟨framing, body, plan⟩ := r
  rw [weatherGetComm_ok]
  rcases framing with - | -
  · -- the last read of a chunked body brought nothing, so an assembled one is empty
    have hlast : (readChunked buffer body plan).1 ≤ 0 := readChunked_nonpos
    by_cases hbody : body = []
    · subst hbody
      rcases plan with - | ⟨k | code, plan⟩
      · simp [Assembled, ArrivesAtOnce, readChunked]
      · simp [Assembled, ArrivesAtOnce, readChunked, webclientRead]
      · refine iff_of_false (fun h => ?_) (fun h => h.2.2)
        have hnonneg : (0 : ℤ) ≤ -((code : ℤ) + 1) := by
          have := (h rfl).1
          rwa [readChunked_cons, if_pos (by simp only [webclientRead]; omega)] at this
        omega
    · refine iff_of_false (not_assembled_of_lt rfl ?_) (fun h => hbody (h.2.1 rfl))
      have hpos : (0 : ℤ) < body.length := by exact_mod_cast List.length_pos_iff.mpr hbody
      exact Int.lt_of_le_of_lt hlast hpos
  · rcases plan with - | ⟨k | code, plan⟩
    · -- the connection was closed at once
      by_cases hbody : body = []
      · subst hbody
        simp [Assembled, ArrivesAtOnce, readSized]
      · refine iff_of_false (not_assembled_of_lt rfl ?_) (fun h => hbody h.2.2)
        have := List.length_pos_iff.mpr hbody
        change (0 : ℤ) < body.length
        omega
    · -- the first read brings all, or the loop ends on a shorter one
      by_cases hk : body.length ≤ k ∧ body.length ≤ respBufsz
      · obtain ⟨b, hrun, htake⟩ := readSized_at_once plan buffer hk.1 hk.2
        refine iff_of_true (fun _ => ?_) ⟨hk.2, by simp, hk.1⟩
        rw [hrun]
        exact ⟨Int.natCast_nonneg _, Int.ofNat_le.mpr hk.2, htake⟩
      · refine iff_of_false (not_assembled_of_lt rfl ?_) (fun h => hk ⟨h.2.2, h.1⟩)
        refine readSized_in_pieces rfl ?_
        rcases not_and_or.mp hk with h | h
        · exact Or.inl (Nat.not_le.mp h)
        · exact Or.inr (Nat.not_le.mp h)
    · refine iff_of_false (fun h => ?_) (fun h => h.2.2)
      have hfail : (readSized body.length buffer body 0 (.fail code :: plan)).1 =
          -((code : ℤ) + 1) := by
        rw [readSized_cons (webclientRead_fail body _ code), if_pos (by omega)]
      have hnonneg := (h rfl).1
      change 0 ≤ (readSized body.length buffer body 0 (.fail code :: plan)).1 at hnonneg
      omega

/-- A chunked reply of two bytes, both in the first read. -/
theorem not_assembled_chunked :
    ¬ Assembled (weatherGetComm
      { session := true, status := 200,
        response := { framing := .chunked, body := [0x7B, 0x7D], plan := [.recv 2] } }
      0 (Block.filled respBufsz 0)) [0x7B, 0x7D] :=
  not_assembled_of_lt rfl (by decide)

end Weather

end WeatherTerminal
