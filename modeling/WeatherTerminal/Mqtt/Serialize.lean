import WeatherTerminal.Mqtt.Publish
import WeatherTerminal.Mqtt.Model.Serialize
/-!
# MQTT — packets as they are written

Every serializer writes a packet, or nothing where the packet might not fit
its buffer, and never past the buffer (`serialize_eq`). What is sent of a
packet is a front of it, all of it where the sending succeeds
(`sendPacket_spec`).
-/

namespace WeatherTerminal

/-- Two rows of stores one behind the other are one row of stores. -/
theorem Block.storeAll_append {n : ℕ} (b : Block n) (i : ℕ) (as bs : List UInt8) :
    b.storeAll i (as ++ bs) = (b.storeAll i as).storeAll (i + as.length) bs := by
  induction as generalizing b i with
  | nil => rfl
  | cons a as ih =>
      rw [List.cons_append, storeAll, storeAll, ih, List.length_cons, Nat.add_right_comm,
        Nat.add_assoc]

namespace Mqtt

variable {n : ℕ}

/-! ## Writing -/

/-- An integer below 65536, as `writeInt` writes it: two bytes, the higher one
first. -/
def int2 (k : ℕ) : List UInt8 := [UInt8.ofNat (k / 256), UInt8.ofNat (k % 256)]

@[simp] theorem length_int2 (k : ℕ) : (int2 k).length = 2 := rfl

namespace Out

variable (o : Out n) (as bs : List UInt8)

@[simp] theorem put_nil : o.put [] = o := rfl

/-- What is written in two steps is written in one. -/
@[simp] theorem put_put : (o.put as).put bs = o.put (as ++ bs) := by
  simp only [put, List.length_append, Nat.add_assoc, Block.storeAll_append]

@[simp] theorem writeChar_eq (c : UInt8) : o.writeChar c = o.put [c] := rfl

/-- An integer is written as the row of its two bytes. -/
@[simp] theorem writeInt_eq (k : ℕ) : o.writeInt k = o.put (int2 k) := by
  rw [writeInt, writeChar_eq, writeChar_eq, put_put]
  rfl

/-- A C string is written with its length before it, the NUL left out. -/
theorem writeMQTTString_cstring (s : List UInt8) :
    o.writeMQTTString { cstring := some s } = o.put (int2 s.length ++ s) := by
  rw [writeMQTTString, if_neg (not_not.mpr rfl)]
  simp only [writeCString, writeInt_eq, put_put]

end Out

/-! ## Packets -/

/-- `MQTTPacket_len` is never less than the length of the packet: what it is
compared with is large enough. -/
theorem length_encode_le_packetLen {remLen : ℕ} (h : remLen < 128 ^ 4) :
    1 + (Varint.encode remLen).length + remLen ≤ packetLen remLen := by
  unfold packetLen
  simp only
  split
  · have := Varint.length_encode_le (n := remLen) (k := 1) (by decide) (by omega)
    omega
  split
  · have := Varint.length_encode_le (n := remLen) (k := 2) (by decide) (by omega)
    omega
  split
  · have := Varint.length_encode_le (n := remLen) (k := 3) (by decide) (by omega)
    omega
  · have := Varint.length_encode_le (n := remLen) (k := 4) (by decide) h
    omega

/-- **A serializer writes its packet, inside its buffer, or nothing**: it
returns the length of the packet, or that the buffer is too short. -/
theorem serialize_eq (buf : Block n) (head : UInt8) {remLen : ℕ} {body : Out n → Out n}
    {bs : List UInt8} (hbody : ∀ o, body o = o.put bs) (hlen : bs.length = remLen) :
    serialize buf head remLen body =
      if n < packetLen remLen then (bufferTooShort, buf)
      else (((packetBytes head bs).length : ℤ), buf.storeAll 0 (packetBytes head bs)) := by
  rw [serialize, hbody, Out.writeChar_eq, Out.put_put, Out.put_put, ← hlen]
  split
  · rfl
  · simp only [Out.put, Nat.zero_add, packetBytes, List.singleton_append]

/-- What is in the buffer, as far as the packet reaches, is the packet; no
store has left the buffer. -/
theorem take_serialized (buf : Block n) (head : UInt8) (bs : List UInt8)
    (hlt : bs.length < 128 ^ 4) (hfits : packetLen bs.length ≤ n) :
    (buf.storeAll 0 (packetBytes head bs)).bytes.take (packetBytes head bs).length =
        packetBytes head bs ∧
      (buf.storeAll 0 (packetBytes head bs)).overrun = buf.overrun := by
  have hlen : (packetBytes head bs).length ≤ n := by
    have := length_encode_le_packetLen hlt
    rw [length_packetBytes]
    omega
  constructor
  · have htake := Block.take_storeAll (i := 0) buf (packetBytes head bs) (by omega)
    rwa [Nat.zero_add] at htake
  · rw [Block.storeAll_overrun, decide_eq_false (by omega), Bool.and_false, Bool.or_false]

/-! ## The message of a publish -/

/-- The identifier, which only a message with a quality of service has, and
the payload. -/
def publishRest (qos : UInt8) (packetid : ℕ) (payload : List UInt8) : List UInt8 :=
  (if qos > 0 then int2 packetid else []) ++ payload

/-- The rest of a message is its payload, with two bytes for the identifier
where it is to be acknowledged. -/
theorem length_publishRest (qos : UInt8) (packetid : ℕ) (payload : List UInt8) :
    (publishRest qos packetid payload).length =
      payload.length + if qos > 0 then 2 else 0 := by
  rw [publishRest, List.length_append, Nat.add_comm]
  split <;> rfl

/-- The packet of a publish: the head with its three flags, the topic, the
identifier if there is one, the payload. -/
def publishPacket (dup qos retained : UInt8) (packetid : ℕ) (topic payload : List UInt8) :
    List UInt8 :=
  packetBytes (header publishType dup qos retained)
    (publishBody topic (publishRest qos packetid payload))

/-- `MQTTSerialize_publish` writes that packet, or finds the buffer too short
for what `MQTTPacket_len` says. -/
theorem serializePublish_eq (buf : Block n) (dup qos retained : UInt8) (packetid : ℕ)
    (topic payload : List UInt8) :
    serializePublish buf dup qos retained packetid { cstring := some topic } payload =
      if n < packetLen (2 + topic.length + payload.length + if qos > 0 then 2 else 0) then
        (bufferTooShort, buf)
      else (((publishPacket dup qos retained packetid topic payload).length : ℤ),
        buf.storeAll 0 (publishPacket dup qos retained packetid topic payload)) := by
  rw [serializePublish, publishPacket]
  refine serialize_eq buf _ (fun o => ?_) ?_
  · simp only [Out.writeMQTTString_cstring, publishRest, publishBody, Out.writeInt_eq]
    split
    · simp [int2]
    · simp [int2]
  · rw [length_publishBody, length_publishRest, publishLength, MQTTString.strlen]
    simp only
    omega

/-- The fields of a header are read back as they were set, each within the
bits that it has. -/
theorem header_fields {type dup qos retained : UInt8} (htype : type < 16) (hdup : dup < 2)
    (hqos : qos < 4) (hretained : retained < 2) :
    headerType (header type dup qos retained) = type ∧
      (header type dup qos retained &&& 0x08) >>> 3 = dup ∧
      qosOf (header type dup qos retained) = qos ∧
      header type dup qos retained &&& 0x01 = retained := by
  have hall : ∀ t < 16, ∀ d < 2, ∀ q < 4, ∀ r < 2,
      let head := header (UInt8.ofNat t) (UInt8.ofNat d) (UInt8.ofNat q) (UInt8.ofNat r)
      headerType head = UInt8.ofNat t ∧ (head &&& 0x08) >>> 3 = UInt8.ofNat d ∧
        qosOf head = UInt8.ofNat q ∧ head &&& 0x01 = UInt8.ofNat r := by
    decide +kernel
  have := hall type.toNat htype dup.toNat hdup qos.toNat hqos retained.toNat hretained
  simpa only [UInt8.ofNat_toNat] using this

/-- An integer that was written in two bytes is read back, wherever it stands.
-/
theorem readInt_int2 {k : ℕ} (hk : k < 2 ^ 16) (front more : List UInt8) :
    readInt (front ++ (int2 k ++ more)) front.length = k := by
  rw [readInt, List.getD_append_right _ _ _ _ (Nat.le_refl _),
    List.getD_append_right _ _ _ _ (Nat.le_succ _), Nat.sub_self, Nat.succ_sub (Nat.le_refl _),
    Nat.sub_self]
  show 256 * (UInt8.ofNat (k / 256)).toNat + (UInt8.ofNat (k % 256)).toNat = k
  rw [Varint.toNat_ofNat (by omega), Varint.toNat_ofNat (by omega)]
  omega

/-! ## The packets of a subscription -/

/-- The packet of a subscribe: the identifier, the filter with its length, and
the quality of service. -/
def subscribePacket (packetid : ℕ) (topicFilter : List UInt8) (qos : UInt8) : List UInt8 :=
  packetBytes (header subscribeType 0 1 0)
    (int2 packetid ++ (int2 topicFilter.length ++ topicFilter ++ [qos]))

/-- The packet of an unsubscribe: the identifier, and the filter with its
length. -/
def unsubscribePacket (packetid : ℕ) (topicFilter : List UInt8) : List UInt8 :=
  packetBytes (header unsubscribeType 0 1 0)
    (int2 packetid ++ (int2 topicFilter.length ++ topicFilter))

/-- `MQTTSerialize_subscribe` of one filter writes the packet of a subscribe,
or finds the buffer too short. -/
theorem serializeSubscribe_eq (buf : Block n) (packetid : ℕ) (topicFilter : List UInt8)
    (qos : UInt8) :
    serializeSubscribe buf 0 packetid [({ cstring := some topicFilter }, qos)] =
      if n < packetLen (2 + topicFilter.length + 3) then (bufferTooShort, buf)
      else (((subscribePacket packetid topicFilter qos).length : ℤ),
        buf.storeAll 0 (subscribePacket packetid topicFilter qos)) := by
  have hlen : 2 + topicFilter.length + 3 = 2 + (2 + topicFilter.length + 1) := by omega
  rw [hlen, serializeSubscribe, subscribePacket]
  refine serialize_eq buf _ (fun o => ?_) ?_
  · simp only [List.foldl_cons, List.foldl_nil, Out.writeMQTTString_cstring, Out.writeInt_eq,
      Out.writeChar_eq, Out.put_put, List.append_assoc]
  · simp only [List.length_append, length_int2, List.length_singleton]
    rfl

/-- `MQTTSerialize_unsubscribe` of one filter writes the packet of an
unsubscribe, or finds the buffer too short. -/
theorem serializeUnsubscribe_eq (buf : Block n) (packetid : ℕ) (topicFilter : List UInt8) :
    serializeUnsubscribe buf 0 packetid [{ cstring := some topicFilter }] =
      if n < packetLen (2 + topicFilter.length + 2) then (bufferTooShort, buf)
      else (((unsubscribePacket packetid topicFilter).length : ℤ),
        buf.storeAll 0 (unsubscribePacket packetid topicFilter)) := by
  have hlen : 2 + topicFilter.length + 2 = 2 + (2 + topicFilter.length) := by omega
  rw [hlen, serializeUnsubscribe, unsubscribePacket]
  refine serialize_eq buf _ (fun o => ?_) ?_
  · simp only [List.foldl_cons, List.foldl_nil, Out.writeMQTTString_cstring, Out.writeInt_eq,
      Out.put_put]
  · simp only [List.length_append, length_int2]
    rfl

/-! ## Sending -/

/-- **What goes out of a packet is a front of it**, and all of it exactly
where the sending succeeds. -/
theorem sendPacket_spec (left : List UInt8) (writes : List Write) :
    (sendPacket left writes).1 <+: left ∧
      ((sendPacket left writes).2 = true ↔ (sendPacket left writes).1 = left) := by
  induction writes generalizing left with
  | nil =>
      rw [sendPacket]
      exact ⟨List.nil_prefix, by rw [List.isEmpty_iff]; exact eq_comm⟩
  | cons w writes ih =>
      rcases w with k | -
      · rw [sendPacket]
        by_cases hnil : left = []
        · rw [if_pos hnil, hnil]
          exact ⟨List.nil_prefix, iff_of_true rfl rfl⟩
        · rw [if_neg hnil]
          obtain ⟨⟨rest, hrest⟩, hall⟩ := ih (left.drop k)
          have hsplit := List.take_append_drop k left
          refine ⟨⟨rest, ?_⟩, hall.trans ?_⟩
          · show left.take k ++ _ ++ rest = left
            rw [List.append_assoc, hrest, hsplit]
          · show _ ↔ left.take k ++ _ = left
            have happend : _ ↔ left.take k ++ (sendPacket (left.drop k) writes).1 =
                left.take k ++ left.drop k := (List.append_right_inj (left.take k)).symm
            rwa [hsplit] at happend
      · rw [sendPacket]
        exact ⟨List.nil_prefix, by rw [List.isEmpty_iff]; exact eq_comm⟩

end Mqtt

end WeatherTerminal
