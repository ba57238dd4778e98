import WeatherTerminal.Mqtt.Model.Packet
/-!
# MQTT — packets in the buffer

What stands in the buffer when a packet has been read
(`readPacket_laid`): its bytes, whatever was in the buffer before, and
behind them a NUL where there is room for one. The buffer leaves room for
every packet but one that fills it to the limit (`recvSize_eq_iff`).
-/

namespace WeatherTerminal

namespace Mqtt

/-! ## The size of the buffer -/

/-- The size of a receive buffer as a minimum, as the arithmetic of the reader
takes it. -/
theorem recvSize_eq_min (len : ℕ) : recvSize len = min 1024 (8 + len) := by
  unfold recvSize
  simp only [messageMaxlen, recvMargin]
  split <;> omega

/-- Only a packet of the utmost size fills its buffer, so that no byte is left
for the NUL behind it. -/
theorem recvSize_eq_iff {len : ℕ} (h : len ≤ recvSize len) :
    len = recvSize len ↔ len = messageMaxlen := by
  have hmin := recvSize_eq_min len
  show _ ↔ len = 1024
  omega

/-- A buffer that is allocated for a longer packet starts with what the one
before it held. -/
theorem allocRecvBuffer_take {old : List UInt8} {len k : ℕ} (hk : k ≤ 8) (hold : k ≤ old.length) :
    (allocRecvBuffer old len).bytes.take k = old.take k := by
  have hsize := recvSize_eq_min len
  have hcopied := Block.take_storeAll (i := 0) (Block.filled (recvSize len) 0)
    (old.take (recvSize len)) (by rw [List.length_take]; omega)
  have hfront := congrArg (List.take k) hcopied
  rwa [List.take_take, List.take_zero, List.nil_append, List.take_take, List.length_take,
    Nat.min_eq_left (by omega), Nat.min_eq_left (by omega)] at hfront

/-! ## What is stored -/

/-- The head in the first buffer: the type, and behind it the remaining
length, written again by the client. -/
theorem head_take (left : List UInt8) (head : UInt8) {enc : List UInt8} (henc : enc.length ≤ 4) :
    ((((allocRecvBuffer left 0).store 0 head).storeAll 1 enc).bytes.take (1 + enc.length)) =
      head :: enc := by
  have hsize : recvSize 0 = 8 := rfl
  have hone : ((allocRecvBuffer left 0).store 0 head).bytes.take 1 = [head] :=
    Block.take_storeAll (i := 0) (allocRecvBuffer left 0) [head]
      (show 0 + 1 ≤ recvSize 0 by omega)
  rw [Block.take_storeAll _ enc (by omega), hone]
  rfl

/-- The NUL behind a packet touches no byte of the packet. -/
theorem terminate_take {n k : ℕ} (buf : Block n) :
    (terminate buf k).bytes.take k = buf.bytes.take k := by
  unfold terminate
  split
  · rw [Block.store_bytes, List.take_set_of_le (Nat.le_refl k)]
  · rfl

/-- Where there is room for a NUL behind the packet, it is there. -/
theorem terminate_getElem? {n k : ℕ} (buf : Block n) (h : k < n) :
    (terminate buf k).bytes[k]? = some 0 := by
  rw [terminate, if_pos h, Block.store_bytes,
    List.getElem?_set_self (by rw [Block.length_eq]; exact h)]

/-! ## A packet -/

/-- The bytes of a packet: its head, the length of its body in the fewest
bytes, and the body. -/
def packetBytes (head : UInt8) (body : List UInt8) : List UInt8 :=
  head :: (Varint.encode body.length ++ body)

/-- A packet is as long as its three parts, the head being one byte. -/
theorem length_packetBytes (head : UInt8) (body : List UInt8) :
    (packetBytes head body).length = 1 + (Varint.encode body.length).length + body.length := by
  rw [packetBytes, List.length_cons, List.length_append]
  omega

/-- A packet in the buffer, with the lengths the reader has written down for
it, and whatever is behind its bytes. -/
structure Laid (p : Received) (head : UInt8) (body tail : List UInt8) : Prop where
  bytes : p.buf.bytes = packetBytes head body ++ tail
  type : p.type = headerType head
  remLen : p.remLen = body.length
  len : p.len = 1 + (Varint.encode body.length).length
  lt : body.length < 128 ^ 4
  room : tail = [] ∨ ∃ rest, tail = 0 :: rest

/-- The buffer holds one packet: its bytes can be taken for no other head and
body. -/
theorem Laid.unique {p : Received} {head head' : UInt8} {body body' tail tail' : List UInt8}
    (h : Laid p head body tail) (h' : Laid p head' body' tail') : head = head' ∧ body = body' := by
  have hlen : body.length = body'.length := h.remLen.symm.trans h'.remLen
  have hbytes := h.bytes.symm.trans h'.bytes
  rw [packetBytes, packetBytes, hlen, List.cons_append, List.cons_append, List.append_assoc,
    List.append_assoc] at hbytes
  obtain ⟨hhead, hrest⟩ := List.cons.inj hbytes
  exact ⟨hhead, (List.append_inj (List.append_cancel_left hrest) hlen).1⟩

/-- The packet is in the buffer once its rest has been stored behind the head,
and the rest was as long as the head says. -/
theorem storeRest_laid (left : List UInt8) (head : UInt8) {remLen : ℕ} {bs : List UInt8}
    (hrem : remLen < 128 ^ 4) (hbs : bs.length = remLen)
    (hfit : remLen + (1 + (Varint.encode remLen).length) ≤
      recvSize (remLen + (1 + (Varint.encode remLen).length))) :
    ∃ tail, Laid (storeRest remLen (1 + (Varint.encode remLen).length)
      (allocRecvBuffer (((allocRecvBuffer left 0).store 0 head).storeAll 1
        (Varint.encode remLen)).bytes (remLen + (1 + (Varint.encode remLen).length))) bs)
      head bs tail := by
  subst hbs
  have henc : (Varint.encode bs.length).length ≤ 4 := Varint.length_encode_le (by decide) hrem
  set enc := Varint.encode bs.length with henc'
  set old := ((allocRecvBuffer left 0).store 0 head).storeAll 1 enc with hold
  have holdlen : old.bytes.length = 8 := by
    rw [Block.length_eq]
    rfl
  set buf := allocRecvBuffer old.bytes (bs.length + (1 + enc.length)) with hbuf
  have hhead : buf.bytes.take (1 + enc.length) = head :: enc := by
    rw [hbuf, allocRecvBuffer_take (by omega) (by omega), hold, head_take left head henc]
  set p := storeRest bs.length (1 + enc.length) buf bs with hp
  have hfront : p.buf.bytes.take (1 + enc.length + bs.length) = packetBytes head bs := by
    show (terminate (buf.storeAll (1 + enc.length) bs) _).bytes.take _ = _
    rw [terminate_take, Block.take_storeAll _ bs (by omega), hhead]
    rfl
  have htype : p.type = headerType head := by
    show headerType ((buf.storeAll (1 + enc.length) bs).bytes.headD 0) = _
    have hbytes := Block.take_storeAll (i := 1 + enc.length) buf bs (by omega)
    rw [hhead] at hbytes
    rcases hstored : (buf.storeAll (1 + enc.length) bs).bytes with - | ⟨c, l⟩
    · rw [hstored, List.take_nil] at hbytes
      cases hbytes
    · rw [hstored, show 1 + enc.length + bs.length = enc.length + bs.length + 1 by omega,
        List.take_succ_cons] at hbytes
      rw [List.headD_cons, (List.cons.inj hbytes).1]
  refine ⟨p.buf.bytes.drop (1 + enc.length + bs.length), ?_, htype, rfl, rfl, hrem, ?_⟩
  · rw [← hfront, List.take_append_drop]
  · -- the reader's NUL stands there where a byte is left for it
    rcases Nat.lt_or_ge (1 + enc.length + bs.length) (recvSize (bs.length + (1 + enc.length))) with
      hlt | hge
    · have hnul : p.buf.bytes[1 + enc.length + bs.length]? = some 0 := terminate_getElem? _ hlt
      obtain ⟨hbound, hget⟩ := List.getElem?_eq_some_iff.mp hnul
      exact Or.inr ⟨_, by rw [List.drop_eq_getElem_cons hbound, hget]⟩
    · exact Or.inl (List.drop_eq_nil_of_le (by rw [Block.length_eq]; exact hge))

/-! ## Reading it -/

/-- A read of the network brings no more bytes than it was asked for. -/
theorem length_ipRead_le {want : ℕ} {net net' : List Arrival} {bs : List UInt8}
    (h : ipRead want net = (some bs, net')) : bs.length ≤ want := by
  rcases net with - | ⟨bytes | -, net⟩
  · obtain rfl := Option.some.inj (Prod.mk.inj h).1
    exact Nat.zero_le want
  · obtain rfl := Option.some.inj (Prod.mk.inj h).1
    exact List.length_take_le want bytes
  · cases (Prod.mk.inj h).1

/-- The remaining length is a number of as many bytes as are read. -/
theorem decodePacket_lt {fuel multiplier value : ℕ} {net net' : List Arrival}
    (h : decodePacket fuel multiplier net = .ok (value, net')) :
    value + multiplier ≤ multiplier * 128 ^ fuel := by
  induction fuel generalizing multiplier value net net' with
  | zero => cases h
  | succ fuel ih =>
      rw [decodePacket] at h
      split at h
      · cases h
      · cases h
      · rename_i i _ rest _
        have hlow : (i &&& 127).toNat ≤ 127 := by
          rw [Varint.and_127]
          omega
        have hfirst : (i &&& 127).toNat * multiplier ≤ 127 * multiplier :=
          Nat.mul_le_mul_right multiplier hlow
        split at h
        · -- more bytes follow, each worth 128 times the one before
          rcases hdec : decodePacket fuel (multiplier * 128) rest with e | ⟨v, net₁⟩
          · rw [hdec] at h
            cases h
          · rw [hdec] at h
            obtain ⟨rfl, -⟩ := Prod.mk.inj (Except.ok.inj h)
            have hv := ih hdec
            have hpow : multiplier * 128 * 128 ^ fuel = multiplier * 128 ^ (fuel + 1) := by
              rw [pow_succ]
              ring
            omega
        · obtain ⟨rfl, -⟩ := Prod.mk.inj (Except.ok.inj h)
          have hone : multiplier * 128 ≤ multiplier * 128 ^ (fuel + 1) := by
            rw [pow_succ, ← Nat.mul_assoc, Nat.mul_right_comm]
            exact Nat.le_mul_of_pos_right _ (Nat.pow_pos (by decide))
          omega

/-- **A packet that is accepted is in the buffer**, whole, whatever the
network delivered and whatever was there before. -/
theorem readPacket_laid {r : Incoming} {p : Received} (h : readPacket r = .packet p) :
    ∃ head body tail, Laid p head body tail := by
  rw [readPacket] at h
  split at h
  · cases h
  split at h
  · cases h
  · cases h
  rename_i head _ net _
  rcases hdec : decodePacket 4 1 net with rc | ⟨remLen, net'⟩
  · rw [hdec] at h
    cases h
  have hrem : remLen < 128 ^ 4 := by
    have := decodePacket_lt hdec
    omega
  rw [hdec] at h
  simp only at h
  split at h
  · cases h
  split at h
  · -- nothing of a packet that is dropped is handed on
    rw [dropPacket] at h
    repeat' split at h
    all_goals cases h
  rename_i hfit
  -- a packet that is kept fits its buffer: an empty one by its size, others by the check
  have hfits : remLen + (1 + (Varint.encode remLen).length) ≤
      recvSize (remLen + (1 + (Varint.encode remLen).length)) := by
    rcases Nat.eq_zero_or_pos remLen with rfl | hpos
    · have hone : (Varint.encode 0).length = 1 := by rw [Varint.encode_last (by decide)]; rfl
      rw [hone]
      decide
    · exact Nat.le_of_not_lt fun hlt => hfit ⟨hpos, hlt⟩
  split at h
  · split at h
    · cases h
    · rename_i hzero
      obtain rfl := Outcome.packet.inj h
      obtain ⟨tail, hlaid⟩ := storeRest_laid r.left head hrem
        (show ([] : List UInt8).length = remLen from (Nat.eq_zero_of_not_pos hzero).symm) hfits
      exact ⟨head, [], tail, hlaid⟩
  · rename_i bs _ hread
    split at h
    · cases h
    · rename_i hlen
      obtain rfl := Outcome.packet.inj h
      have hbs : bs.length = remLen := by
        have := length_ipRead_le hread
        by_contra hne
        exact hlen ⟨by omega, hne⟩
      obtain ⟨tail, hlaid⟩ := storeRest_laid r.left head hrem hbs hfits
      exact ⟨head, bs, tail, hlaid⟩

/-! ## Packets that arrive -/

/-- Bytes that arrive in one piece, which any number of reads may take them
from. -/
def arrive (bs : List UInt8) : List Arrival := if bs = [] then [] else [.bytes bs]

/-- A read of one byte takes the first one, and leaves the others for the next
read. -/
theorem ipRead_one (b : UInt8) (bs : List UInt8) :
    ipRead 1 (arrive (b :: bs)) = (some [b], arrive bs) := by
  rcases bs with - | ⟨c, bs⟩ <;> simp [arrive, ipRead]

/-- A read that asks for all that has arrived takes it, and nothing is left.
-/
theorem ipRead_all (bs : List UInt8) : ipRead bs.length (arrive bs) = (some bs, []) := by
  rcases bs with - | ⟨c, bs⟩ <;> simp [arrive, ipRead]

/-- The remaining length is read as it was written, where it is given as many
bytes as it needs. -/
theorem decodePacket_encode {n fuel : ℕ} (hfuel : 0 < fuel) (h : n < 128 ^ fuel)
    (multiplier : ℕ) (bs : List UInt8) :
    decodePacket fuel multiplier (arrive (Varint.encode n ++ bs)) =
      .ok (n * multiplier, arrive bs) := by
  induction fuel generalizing n multiplier with
  | zero => omega
  | succ fuel ih =>
      rcases Nat.lt_or_ge n 128 with hn | hn
      · obtain ⟨hlast, hlow⟩ := Varint.and_last hn
        rw [Varint.encode_last hn, List.singleton_append, decodePacket, ipRead_one]
        simp [hlast, hlow]
        rfl
      · obtain ⟨hmore, hlow⟩ := Varint.and_more (Nat.mod_lt n (show 0 < 128 by omega))
        have hpos : 0 < fuel := by
          rcases fuel with - | fuel
          · omega
          · exact Nat.succ_pos fuel
        have hrest := ih hpos (Nat.div_lt_of_lt_mul (by rwa [Nat.mul_comm, ← pow_succ]))
          (multiplier * 128)
        have hsum : n % 128 * multiplier + n / 128 * (multiplier * 128) = n * multiplier := by
          conv_rhs => rw [← Nat.mod_add_div n 128]
          ring
        rw [Varint.encode_more hn, List.cons_append, decodePacket, ipRead_one]
        show (if _ then _ else _) = _
        rw [if_pos hmore, hrest, hlow]
        show Except.ok (n % 128 * multiplier + n / 128 * (multiplier * 128), arrive bs) = _
        rw [hsum]

/-- **Every packet up to the limit is accepted**, whatever was in the
buffer. -/
theorem readPacket_arrive (left : List UInt8) (head : UInt8) {body : List UInt8}
    (h : (packetBytes head body).length ≤ messageMaxlen) :
    ∃ p tail, readPacket { left := left, net := arrive (packetBytes head body),
                           headGranted := true, packetGranted := true, dropGranted := true } =
        .packet p ∧ Laid p head body tail := by
  rw [length_packetBytes] at h
  have hlt : body.length < 128 ^ 4 := by
    have : messageMaxlen = 1024 := rfl
    omega
  have hfits : body.length + (1 + (Varint.encode body.length).length) ≤
      recvSize (body.length + (1 + (Varint.encode body.length).length)) := by
    have := recvSize_eq_min (body.length + (1 + (Varint.encode body.length).length))
    have : messageMaxlen = 1024 := rfl
    omega
  obtain ⟨tail, hlaid⟩ := storeRest_laid left head hlt rfl hfits
  refine ⟨_, tail, ?_, hlaid⟩
  rw [readPacket, if_neg nofun, packetBytes, ipRead_one]
  simp only
  rw [decodePacket_encode (by decide) hlt, Nat.mul_one]
  simp only
  rw [if_neg nofun, if_neg (fun hnot => absurd hnot.2 (Nat.not_lt.mpr hfits)), ipRead_all]
  simp only
  rw [if_neg (fun hnot => hnot.2 rfl)]

end Mqtt

end WeatherTerminal
