import WeatherTerminal.Mqtt.Packet
/-!
# MQTT — the message in a packet

A message that is delivered is a topic with its length before it, and what
follows (`publishes_of_handled`); where its payload is said to be and how
long follows from that (`handleRecvPublish_publishBody`).
-/

namespace WeatherTerminal

namespace Mqtt

/-! ## The bytes of a message -/

/-- What follows the head: the topic, its length before it, and the rest,
which is the payload and what may be before it. -/
def publishBody (topic rest : List UInt8) : List UInt8 :=
  UInt8.ofNat (topic.length / 256) :: UInt8.ofNat (topic.length % 256) :: (topic ++ rest)

/-- `MQTT_HEADER_GET_QOS`: the quality of service, in two bits of the first
byte of a message. -/
def qosOf (head : UInt8) : UInt8 := (head &&& 0x06) >>> 1

/-- The bytes of the packet identifier, which only a message with a quality
of service has. -/
def idLength (head : UInt8) : ℕ := if qosOf head > 0 then 2 else 0

/-- The payload of a message: what stands behind its topic and, where there is
one, its identifier. -/
def payloadOf (head : UInt8) (rest : List UInt8) : List UInt8 := rest.drop (idLength head)

/-- The packet in the buffer is a message with this topic, which is not empty,
and with this rest behind it. -/
def Publishes (p : Received) (head : UInt8) (topic rest : List UInt8) : Prop :=
  (∃ tail, Laid p head (publishBody topic rest) tail) ∧ headerType head = publishType ∧
    topic ≠ [] ∧ topic.length < 2 ^ 16

variable {head : UInt8} {topic rest body more : List UInt8} {filters : List (List UInt8)}

/-- The body of a message is as long as topic and rest, with the two bytes of
the length of the topic. -/
theorem length_publishBody : (publishBody topic rest).length = 2 + topic.length + rest.length := by
  simp only [publishBody, List.length_cons, List.length_append]
  omega

/-- Every body that holds as many bytes as it says is the body of a
message. -/
theorem publishBody_take_drop {hi lo : UInt8} {k : ℕ} (hk : k = 256 * hi.toNat + lo.toNat)
    (hbody : k ≤ body.length) : hi :: lo :: body = publishBody (body.take k) (body.drop k) := by
  have hhi := hi.toNat_lt
  have hlo := lo.toNat_lt
  have hlen : (body.take k).length = k := by
    rw [List.length_take]
    omega
  have hdiv : k / 256 = hi.toNat := by omega
  have hmod : k % 256 = lo.toNat := by omega
  rw [publishBody, hlen, hdiv, hmod, UInt8.ofNat_toNat, UInt8.ofNat_toNat, List.take_append_drop]

/-! ## Finding the message -/

/-- A place behind the head of a packet is that place in its body, or in what
follows the packet. -/
theorem getD_packetBytes (head : UInt8) (body more : List UInt8) (k : ℕ) :
    (packetBytes head body ++ more).getD (1 + (Varint.encode body.length).length + k) 0 =
      (body ++ more).getD k 0 := by
  have hsplit : packetBytes head body ++ more =
      (head :: Varint.encode body.length) ++ (body ++ more) := by
    simp [packetBytes]
  rw [hsplit, List.getD_append_right _ _ _ _ (by rw [List.length_cons]; omega), List.length_cons]
  congr 1
  omega

/-- What stands behind a place in the body of a packet, with what follows the
packet. -/
theorem drop_packetBytes (k : ℕ) :
    (packetBytes head body ++ more).drop (1 + (Varint.encode body.length).length + k) =
      (body ++ more).drop k := by
  have hsplit : packetBytes head body ++ more =
      (head :: Varint.encode body.length) ++ (body ++ more) := by
    simp [packetBytes]
  have hlen : 1 + (Varint.encode body.length).length =
      (head :: Varint.encode body.length).length := by
    rw [List.length_cons]
    omega
  rw [hsplit, hlen, ← List.drop_drop, List.drop_left]

/-- The remaining length that stands in a packet is the length of its body. -/
theorem decode_packetBytes (h : body.length < 128 ^ 4) :
    Varint.decode 4 1 ((packetBytes head body ++ more).drop 1) =
      (body.length, (Varint.encode body.length).length) := by
  have hdrop : (packetBytes head body ++ more).drop 1 =
      Varint.encode body.length ++ (body ++ more) := by
    simp [packetBytes]
  rw [hdrop, Varint.decode_encode (by decide) h, Nat.mul_one]

/-- The first two bytes of a body, read as a number where the body starts. -/
theorem readInt_packetBytes (head : UInt8) (more : List UInt8) {hi lo : UInt8}
    (hbody : body = hi :: lo :: rest) :
    readInt (packetBytes head body ++ more) (1 + (Varint.encode body.length).length) =
      256 * hi.toNat + lo.toNat := by
  have h0 := getD_packetBytes head body more 0
  have h1 := getD_packetBytes head body more 1
  rw [Nat.add_zero] at h0
  rw [readInt, h0, h1, hbody]
  rfl

/-- The message that is handed on: where its topic and its payload are, and
how long they are said to be. -/
def infoOf (head : UInt8) (topic rest : List UInt8) : TopicInfo :=
  let data := 1 + (Varint.encode (publishBody topic rest).length).length + 2
  { ptopic := data
    topicLen := topic.length
    payload := data + topic.length + idLength head
    payloadLen := (((rest.length : ℤ) - idLength head) % 2 ^ 32).toNat }

/-- **A message is found** where its bytes are, whatever follows it in memory;
it is handed on unless a handler has taken its topic. -/
theorem handleRecvPublish_publishBody (filters : List (List UInt8)) (more : List UInt8)
    (hlt : (publishBody topic rest).length < 128 ^ 4)
    (htype : headerType head = publishType) (hlen : topic.length < 2 ^ 16) :
    handleRecvPublish filters (packetBytes head (publishBody topic rest) ++ more) =
      if topic.length = 0 then .error publishPacketError
      else if taken filters topic then .ok none else .ok (some (infoOf head topic rest)) := by
  set body := publishBody topic rest with hbody
  have hblen : body.length = 2 + topic.length + rest.length := length_publishBody
  have hread : readInt (packetBytes head body ++ more) (1 + (Varint.encode body.length).length) =
      topic.length := by
    rw [readInt_packetBytes head more hbody, Varint.toNat_ofNat (by omega),
      Varint.toNat_ofNat (by omega)]
    omega
  have hdata : ((packetBytes head body ++ more).drop
      (1 + (Varint.encode body.length).length + 2)).take topic.length = topic := by
    rw [drop_packetBytes, hbody, publishBody]
    simp
  -- every field as the bytes have it
  have hdes : deserializePublish (packetBytes head body ++ more) =
      (1, { dup := (head &&& 0x08) >>> 3, qos := qosOf head, retained := head &&& 0x01,
            packetId := if qosOf head > 0 then readInt (packetBytes head body ++ more)
              (1 + (Varint.encode body.length).length + 2 + topic.length) else 0,
            topicLen := topic.length,
            topicData := some (1 + (Varint.encode body.length).length + 2),
            payload := some (1 + (Varint.encode body.length).length + 2 + topic.length +
              idLength head),
            payloadLen := (rest.length : ℤ) - idLength head }) := by
    unfold deserializePublish
    rw [decode_packetBytes hlt]
    show (if headerType head ≠ publishType then _ else _) = _
    rw [if_neg (not_not.mpr htype)]
    simp only [hread]
    rw [if_neg (by omega), if_neg (by omega)]
    have hrest : ((1 + (Varint.encode body.length).length + body.length : ℕ) : ℤ) -
        (1 + (Varint.encode body.length).length + 2 + topic.length + idLength head : ℕ) =
          (rest.length : ℤ) - idLength head := by
      omega
    have hhead : (packetBytes head body ++ more).headD 0 = head := rfl
    rw [← hrest, hhead]
    unfold idLength qosOf
    by_cases hqos : (head &&& 0x06) >>> 1 > (0 : UInt8)
    · simp only [if_pos hqos]
    · simp only [if_neg hqos, Nat.add_zero]
  rw [handleRecvPublish, hdes]
  simp only
  rw [if_neg (by decide), hdata]
  rfl

/-- What is handed on is a message: the type of the packet has been looked at,
and the topic is not empty. -/
theorem publishes_of_handled {p : Received} {tail behind : List UInt8} {info : TopicInfo}
    (hlaid : Laid p head body tail)
    (h : handleRecvPublish filters (p.buf.bytes ++ behind) = .ok (some info)) :
    ∃ topic rest, Publishes p head topic rest ∧ taken filters topic = false ∧
      info = infoOf head topic rest := by
  have hbytes : p.buf.bytes ++ behind = packetBytes head body ++ (tail ++ behind) := by
    rw [hlaid.bytes, List.append_assoc]
  have htype : headerType head = publishType := by
    by_contra hne
    rw [hbytes, handleRecvPublish, deserializePublish] at h
    have hhead : (packetBytes head body ++ (tail ++ behind)).headD 0 = head := rfl
    rw [hhead, if_pos hne] at h
    cases h
  -- a body too short for its topic has no topic
  have hnone :
      (deserializePublish (packetBytes head body ++ (tail ++ behind))).2.topicData ≠ none := by
    intro hnone
    rw [hbytes, handleRecvPublish] at h
    rcases hdes : deserializePublish (packetBytes head body ++ (tail ++ behind)) with ⟨rc, msg⟩
    rw [hdes] at h hnone
    simp only at h hnone
    rw [hnone] at h
    split at h <;> cases h
  have hbody : ∃ hi lo b, body = hi :: lo :: b ∧ 256 * hi.toNat + lo.toNat ≤ b.length := by
    by_contra hnot
    refine hnone ?_
    unfold deserializePublish
    rw [decode_packetBytes hlaid.lt]
    show (if headerType head ≠ publishType then _ else _ : ℕ × Publish).2.topicData = none
    rw [if_neg (not_not.mpr htype)]
    simp only
    rcases body with - | ⟨hi, - | ⟨lo, b⟩⟩
    · rw [if_pos (by simp)]
    · rw [if_pos (by simp)]
    · have hread := readInt_packetBytes head (tail ++ behind) (show hi :: lo :: b = _ from rfl)
      have hlong : ¬ 256 * hi.toNat + lo.toNat ≤ b.length := fun hle => hnot ⟨hi, lo, b, rfl, hle⟩
      simp only [hread]
      rw [if_neg (by simp), if_pos (by simp only [List.length_cons]; omega)]
  obtain ⟨hi, lo, b, rfl, hle⟩ := hbody
  have hhi := hi.toNat_lt
  have hlo := lo.toNat_lt
  have hpub := publishBody_take_drop rfl hle
  set topic := b.take (256 * hi.toNat + lo.toNat) with htopic
  set rest := b.drop (256 * hi.toNat + lo.toNat) with hrest
  have hlen : topic.length = 256 * hi.toNat + lo.toNat := by
    rw [htopic, List.length_take]
    omega
  rw [hpub] at hlaid hbytes
  have hfound := handleRecvPublish_publishBody filters (tail ++ behind) hlaid.lt htype
    (show topic.length < 2 ^ 16 by omega)
  rw [← hbytes, h] at hfound
  split at hfound
  · cases hfound
  rename_i hne
  split at hfound
  · cases hfound
  rename_i htaken
  exact ⟨topic, rest, ⟨⟨tail, hlaid⟩, htype, fun hnil => hne (by rw [hnil]; rfl), by omega⟩,
    by simpa using htaken, Option.some.inj (Except.ok.inj hfound)⟩

end Mqtt

end WeatherTerminal
