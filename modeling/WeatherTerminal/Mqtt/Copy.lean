import WeatherTerminal.Mqtt.Publish
import WeatherTerminal.Mqtt.Model.Recv
/-!
# MQTT — the copy of the payload

`rt_strcpy` copies up to the first NUL behind the start of the payload, and
only the payload itself or the reader of the packet puts one there. So the
copy stays inside the packet and its block exactly where the packet leaves
room for the reader's NUL or the payload has its own
(`copyInside_iff`). Where it does, the block holds what the handler was
said to work on (`CopyInside.message`).
-/

namespace WeatherTerminal

namespace Mqtt

variable {p : Received} {head : UInt8} {topic rest mem behind : List UInt8} {info : TopicInfo}

/-- What the copy of a payload at `info.payload` is to be like, in the
memory `mem` that starts with the buffer of the packet. -/
structure CopyInside (p : Received) (info : TopicInfo) (mem : List UInt8) : Prop where
  /-- The payload lies in the packet. -/
  payload : info.payload + info.payloadLen ≤ p.len + p.remLen
  /-- Nothing is read behind the terminator of the payload… -/
  reads : (cstrOf (mem.drop info.payload)).length ≤ info.payloadLen
  /-- …nor outside the buffer, the NUL that ends the copy included. -/
  buffer : info.payload + (cstrOf (mem.drop info.payload)).length < recvSize (p.remLen + p.len)
  /-- Nothing is written outside the block. -/
  writes : (recvCopy info.payloadLen (mem.drop info.payload)).overrun = false
  /-- The block holds the payload up to its first NUL, and NULs. -/
  text : (recvCopy info.payloadLen (mem.drop info.payload)).bytes =
    cstrOf ((mem.drop info.payload).take info.payloadLen) ++
      List.replicate (info.payloadLen + 1 -
        (cstrOf ((mem.drop info.payload).take info.payloadLen)).length) 0

/-! ## Strings in memory -/

/-- A text with a NUL in it ends the string, whatever stands behind the text.
-/
theorem cstrOf_append_of_mem {s t : List UInt8} (h : 0 ∈ s) : cstrOf (s ++ t) = cstrOf s := by
  obtain ⟨u, v, rfl, hu⟩ := List.eq_append_cons_of_mem h
  rw [List.append_assoc, List.cons_append, cstrOf_append_zero hu, cstrOf_append_zero hu]

/-- A text without a NUL is the beginning of a string that goes on behind it.
-/
theorem cstrOf_append_of_notMem {s t : List UInt8} (h : 0 ∉ s) :
    cstrOf (s ++ t) = s ++ cstrOf t := by
  rw [cstrOf, List.takeWhile_append_of_pos, cstrOf]
  exact fun a ha => by simpa using fun hz : a = 0 => h (hz ▸ ha)

/-- A text without a NUL is a string as it is. -/
theorem cstrOf_eq_self {s : List UInt8} (h : 0 ∉ s) : cstrOf s = s := by
  have := cstrOf_append_of_notMem (t := []) h
  simpa [cstrOf] using this

/-- `strcpy` into a cleared block leaves the string, and zeros behind it up to
the end of the block. -/
theorem strcpy_cleared {n : ℕ} {s : List UInt8} (h : s.length < n) :
    ((Block.filled n 0).strcpy 0 s).bytes = s ++ List.replicate (n - s.length) 0 := by
  refine List.ext_getElem? fun j => ?_
  rcases Nat.lt_or_ge j n with hj | hj
  · rw [Block.strcpy, Block.storeAll_getElem? hj, Nat.zero_add, List.length_append,
      List.length_singleton, Nat.sub_zero, Block.filled_bytes]
    rcases Nat.lt_or_ge j s.length with hs | hs
    · rw [if_pos (by omega), List.getElem?_append_left hs, List.getElem?_append_left hs]
    · have hzero : (s ++ List.replicate (n - s.length) (0 : UInt8))[j]? = some 0 := by
        rw [List.getElem?_append_right hs, List.getElem?_replicate_of_lt (by omega)]
      rw [hzero]
      split
      · rw [show j = s.length by omega, List.getElem?_concat_length]
      · exact List.getElem?_replicate_of_lt hj
  · rw [List.getElem?_eq_none (by rw [Block.length_eq]; exact hj),
      List.getElem?_eq_none (by
        rw [List.length_append, List.length_replicate]
        omega)]

/-! ## The copy -/

/-- A string that is no longer than the payload length says is copied inside
the block, zeros behind it. -/
theorem recvCopy_of_short (k : ℕ) (src : List UInt8) (hk : k + 1 < 2 ^ 32)
    (h : (cstrOf src).length ≤ k) :
    (recvCopy k src).overrun = false ∧
      (recvCopy k src).bytes = cstrOf src ++ List.replicate (k + 1 - (cstrOf src).length) 0 := by
  have hmod : (k + 1) % 2 ^ 32 = k + 1 := Nat.mod_eq_of_lt hk
  constructor
  · rw [recvCopy, Block.strcpy_overrun, Nat.zero_add]
    exact decide_eq_false (by omega)
  · rw [recvCopy, strcpy_cleared (by omega), hmod]

/-- There is room for the identifier where the quality of service asks for
none, or the rest has two bytes. -/
theorem idLength_le_iff : idLength head ≤ rest.length ↔ qosOf head = 0 ∨ 2 ≤ rest.length := by
  unfold idLength
  by_cases hqos : qosOf head = 0
  · rw [if_neg (by rw [hqos]; decide)]
    exact iff_of_true (Nat.zero_le _) (Or.inl hqos)
  · rw [if_pos (UInt8.pos_iff_ne_zero.mpr hqos)]
    exact (or_iff_right hqos).symm

/-- What stands where the payload is said to be: the payload, and then
whatever follows the packet in memory. -/
theorem drop_payload (head : UInt8) (topic rest more : List UInt8)
    (h : idLength head ≤ rest.length) :
    (packetBytes head (publishBody topic rest) ++ more).drop (infoOf head topic rest).payload =
      payloadOf head rest ++ more := by
  have hoffset : (infoOf head topic rest).payload =
      1 + (Varint.encode (publishBody topic rest).length).length +
        (2 + topic.length + idLength head) := by
    simp only [infoOf]
    omega
  have hbody : publishBody topic rest =
      (UInt8.ofNat (topic.length / 256) :: UInt8.ofNat (topic.length % 256) :: topic) ++ rest := by
    simp [publishBody]
  have hfront : 2 + topic.length =
      (UInt8.ofNat (topic.length / 256) :: UInt8.ofNat (topic.length % 256) :: topic).length := by
    simp only [List.length_cons]
    omega
  rw [hoffset, drop_packetBytes, hbody, List.append_assoc, hfront, ← List.drop_drop,
    List.drop_left, List.drop_append_of_le_length h, payloadOf]

/-- The length of the payload as a `uint32_t` is its length, where there is
room for the identifier before it. -/
theorem payloadLen_eq (topic : List UInt8) (h : idLength head ≤ rest.length)
    (hlt : rest.length < 2 ^ 32) :
    (infoOf head topic rest).payloadLen = (payloadOf head rest).length := by
  rw [payloadOf, List.length_drop]
  show (((rest.length : ℤ) - idLength head) % 2 ^ 32).toNat = _
  omega

/-- **The copy of one message** stays inside exactly where its identifier
is there and a NUL ends the payload in the buffer. -/
theorem Publishes.copyInside_iff (h : Publishes p head topic rest) (behind : List UInt8) :
    CopyInside p (infoOf head topic rest) (p.buf.bytes ++ behind) ↔
      (qosOf head = 0 ∨ 2 ≤ rest.length) ∧
        (p.remLen + p.len < messageMaxlen ∨ 0 ∈ payloadOf head rest) := by
  obtain ⟨⟨tail, hlaid⟩, -, -, -⟩ := h
  have hblen : (publishBody topic rest).length = 2 + topic.length + rest.length :=
    length_publishBody
  have hlen := hlaid.len
  have hremLen := hlaid.remLen
  have hsize : p.remLen + p.len + tail.length = recvSize (p.remLen + p.len) := by
    have := p.buf.length_eq
    rw [hlaid.bytes, List.length_append, length_packetBytes] at this
    omega
  have hmax : messageMaxlen = 1024 := rfl
  have hmin := recvSize_eq_min (p.remLen + p.len)
  have hoffset : (infoOf head topic rest).payload =
      1 + (Varint.encode (publishBody topic rest).length).length +
        (2 + topic.length + idLength head) := by
    simp only [infoOf]
    omega
  rw [← idLength_le_iff]
  by_cases hid : idLength head ≤ rest.length
  swap
  · -- the length of the payload has come out negative
    refine iff_of_false (fun hin => ?_) fun hnot => hid hnot.1
    have htwo : idLength head ≤ 2 := by
      unfold idLength
      split <;> omega
    have hhuge : (infoOf head topic rest).payloadLen =
        (((rest.length : ℤ) - idLength head) % 2 ^ 32).toNat := rfl
    have := hin.payload
    omega
  have hpayloadLen := payloadLen_eq topic hid (show rest.length < 2 ^ 32 by omega)
  have hdrop : (p.buf.bytes ++ behind).drop (infoOf head topic rest).payload =
      payloadOf head rest ++ (tail ++ behind) := by
    rw [hlaid.bytes, List.append_assoc, drop_payload head topic rest _ hid]
  have hend : (infoOf head topic rest).payload + (payloadOf head rest).length =
      p.remLen + p.len := by
    rw [payloadOf, List.length_drop]
    omega
  set payload := payloadOf head rest with hpayload
  have hshort := cstrOf_length_le payload
  -- a string that ends with the payload or before it is copied as it should be
  have hright : cstrOf (payload ++ (tail ++ behind)) = cstrOf payload →
      (infoOf head topic rest).payload + (cstrOf payload).length <
        recvSize (p.remLen + p.len) →
      CopyInside p (infoOf head topic rest) (p.buf.bytes ++ behind) := by
    intro hstring hbuffer
    obtain ⟨hwrites, htext⟩ := recvCopy_of_short payload.length
      (payload ++ (tail ++ behind)) (by omega) (by rw [hstring]; exact hshort)
    refine ⟨by omega, ?_, ?_, ?_, ?_⟩
    · rw [hdrop, hstring, hpayloadLen]
      exact hshort
    · rw [hdrop, hstring]
      exact hbuffer
    · rw [hdrop, hpayloadLen]
      exact hwrites
    · rw [hdrop, hpayloadLen, List.take_left, htext, hstring]
  rw [and_iff_right hid]
  by_cases hzero : 0 ∈ payload
  · refine iff_of_true (hright (cstrOf_append_of_mem hzero) ?_) (Or.inr hzero)
    have hlt : (cstrOf payload).length < payload.length := by
      obtain ⟨u, v, huv, hu⟩ := List.eq_append_cons_of_mem hzero
      rw [huv, cstrOf_append_zero hu, List.length_append, List.length_cons]
      omega
    omega
  · rw [or_iff_left hzero]
    rcases hlaid.room with rfl | ⟨more, rfl⟩
    · -- the packet fills the buffer, and nothing in it ends the string
      refine iff_of_false (fun hin => ?_) fun hlt => ?_
      · have hbuffer := hin.buffer
        rw [hdrop, cstrOf_append_of_notMem hzero, List.length_append] at hbuffer
        rw [List.length_nil] at hsize
        omega
      · rw [List.length_nil] at hsize
        omega
    · refine iff_of_true (hright ?_ ?_) ?_
      · rw [cstrOf_append_of_notMem hzero, cstrOf_eq_self hzero, List.cons_append]
        exact List.append_nil payload
      · rw [cstrOf_eq_self hzero, List.length_cons] at *
        omega
      · rw [List.length_cons] at hsize
        omega

/-- **Then the block is the copy the handler was said to make** of the
payload. -/
theorem Publishes.message (h : Publishes p head topic rest) (behind : List UInt8)
    (hin : CopyInside p (infoOf head topic rest) (p.buf.bytes ++ behind)) {m : Message}
    (hm : m.payload = payloadOf head rest) :
    (recvCopy (infoOf head topic rest).payloadLen
      ((p.buf.bytes ++ behind).drop (infoOf head topic rest).payload)).bytes = m.copy.bytes := by
  have hid := idLength_le_iff.mpr ((h.copyInside_iff behind).mp hin).1
  obtain ⟨⟨tail, hlaid⟩, -, -, -⟩ := h
  have hlt := hlaid.lt
  rw [length_publishBody] at hlt
  have hshort := cstrOf_length_le m.payload
  rw [hin.text, hlaid.bytes, List.append_assoc, drop_payload head topic rest _ hid,
    payloadLen_eq topic hid (by omega), List.take_left, ← hm, Message.copy,
    strcpy_cleared (by omega)]

/-! ## The packets that are accepted -/

/-- **The handler's copy of every packet that is accepted stays inside**,
the block being granted, exactly where each message that reaches the
handler has its identifier, and is shorter than the buffer may be or has a
NUL in its payload. -/
theorem mqttRecvHandle_inside_iff {r : Incoming} (h : readPacket r = .packet p)
    (filters : List (List UInt8)) (behind : List UInt8) (granted : Bool) :
    (∀ info, handleRecvPublish filters (p.buf.bytes ++ behind) = .ok (some info) →
        granted = true ∧ CopyInside p info (p.buf.bytes ++ behind)) ↔
      ∀ head topic rest, Publishes p head topic rest → taken filters topic = false →
        granted = true ∧ (qosOf head = 0 ∨ 2 ≤ rest.length) ∧
          (p.remLen + p.len < messageMaxlen ∨ 0 ∈ payloadOf head rest) := by
  obtain ⟨head₀, body, tail, hlaid⟩ := readPacket_laid h
  constructor
  · intro hall head topic rest hpub htaken
    obtain ⟨⟨tail', hlaid'⟩, htype, hne, hlen⟩ := hpub
    have hfound := handleRecvPublish_publishBody filters (tail' ++ behind) hlaid'.lt htype hlen
    rw [← List.append_assoc, ← hlaid'.bytes, if_neg (mt List.length_eq_zero_iff.mp hne),
      if_neg (by simp [htaken])] at hfound
    obtain ⟨hgranted, hin⟩ := hall _ hfound
    exact ⟨hgranted, (Publishes.copyInside_iff ⟨⟨tail', hlaid'⟩, htype, hne, hlen⟩ behind).mp hin⟩
  · intro hall info hinfo
    obtain ⟨topic, rest, hpub, htaken, rfl⟩ := publishes_of_handled hlaid hinfo
    obtain ⟨hgranted, hcond⟩ := hall _ topic rest hpub htaken
    exact ⟨hgranted, (hpub.copyInside_iff behind).mpr hcond⟩

/-! ## Two packets -/

/-- A message without a packet identifier, to the topic `t`, arriving in one
piece. -/
def incoming (payload : List UInt8) : Incoming where
  left := []
  net := arrive (packetBytes 0x30 (publishBody (utf8 "t") payload))
  headGranted := true
  packetGranted := true
  dropGranted := true

/-- How long a packet with a topic of one byte is, by the bytes its remaining
length takes. -/
theorem length_incoming {payload : List UInt8} {k : ℕ} (hk : 0 < k)
    (h : payload.length + 3 < 128 ^ k) :
    (packetBytes 0x30 (publishBody (utf8 "t") payload)).length ≤ 1 + k + (payload.length + 3) := by
  have hlen : (publishBody (utf8 "t") payload).length = payload.length + 3 := by
    rw [length_publishBody, show (utf8 "t").length = 1 from rfl]
    omega
  have henc := Varint.length_encode_le hk (hlen ▸ h)
  rw [length_packetBytes, hlen] at *
  omega

/-- A message of five bytes is copied inside its block. -/
theorem mqttRecvHandle_inside_hello :
    ∃ p, readPacket (incoming (utf8 "hello")) = .packet p ∧
      ∀ info, handleRecvPublish [] (p.buf.bytes ++ [0x61]) = .ok (some info) →
        true = true ∧ CopyInside p info (p.buf.bytes ++ [0x61]) := by
  have hlen : (packetBytes 0x30 (publishBody (utf8 "t") (utf8 "hello"))).length ≤ 10 :=
    length_incoming (k := 1) Nat.one_pos (by decide)
  obtain ⟨p, tail, hread, hlaid⟩ := readPacket_arrive [] 0x30
    (show _ ≤ messageMaxlen from Nat.le_trans hlen (by decide))
  refine ⟨p, hread, (mqttRecvHandle_inside_iff hread [] [0x61] true).mpr ?_⟩
  rintro head topic rest ⟨⟨tail', hlaid'⟩, -⟩ -
  obtain ⟨rfl, -⟩ := hlaid.unique hlaid'
  rw [length_packetBytes] at hlen
  refine ⟨rfl, Or.inl (by decide), Or.inl ?_⟩
  rw [hlaid.remLen, hlaid.len]
  show _ < 1024
  omega

/-- A packet of 1024 bytes leaves no room for the reader's NUL, and the copy
goes on with what follows the buffer. -/
theorem not_inside_full :
    ∃ p, readPacket (incoming (List.replicate 1018 0x61)) = .packet p ∧
      p.remLen + p.len = messageMaxlen ∧
      ¬ ∀ info, handleRecvPublish [] (p.buf.bytes ++ [0x61]) = .ok (some info) →
        true = true ∧ CopyInside p info (p.buf.bytes ++ [0x61]) := by
  set payload : List UInt8 := List.replicate 1018 0x61 with hpayload
  have hone : (utf8 "t").length = 1 := rfl
  have hbody : (publishBody (utf8 "t") payload).length = 1021 := by
    rw [length_publishBody, hone, hpayload, List.length_replicate]
  have henc : (Varint.encode 1021).length = 2 := by
    rw [Varint.encode_more (by decide), Varint.encode_last (by decide)]
    rfl
  obtain ⟨p, tail, hread, hlaid⟩ := readPacket_arrive [] 0x30
    (show (packetBytes 0x30 (publishBody (utf8 "t") payload)).length ≤ 1024 by
      rw [length_packetBytes, hbody, henc])
  have hfull : p.remLen + p.len = messageMaxlen := by
    rw [hlaid.remLen, hlaid.len, hbody, henc]
  refine ⟨p, hread, hfull, fun hall => ?_⟩
  have hpub : Publishes p 0x30 (utf8 "t") payload :=
    ⟨⟨tail, hlaid⟩, by decide, by decide, by decide⟩
  have hfound := handleRecvPublish_publishBody [] (tail ++ [0x61]) hlaid.lt
    (show headerType 0x30 = publishType by decide) (show (utf8 "t").length < 2 ^ 16 by decide)
  rw [← List.append_assoc, ← hlaid.bytes, if_neg (by decide), if_neg (by decide)] at hfound
  rcases ((hpub.copyInside_iff [0x61]).mp (hall _ hfound).2).2 with hlt | hzero
  · exact absurd hlt (Nat.not_lt.mpr (Nat.le_of_eq hfull.symm))
  · have hmem := List.mem_of_mem_drop hzero
    rw [hpayload] at hmem
    exact absurd (List.eq_of_mem_replicate hmem) (by decide)

end Mqtt

end WeatherTerminal
