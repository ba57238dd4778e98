import WeatherTerminal.Common.Frame
import WeatherTerminal.Mqtt.Model.Session
import WeatherTerminal.Mqtt.Call
/-!
# MQTT — one packet over the connection

What the functions that send one packet put out: the whole packet, or the
beginning of it and a network error, or nothing and another error
(`Sends`).
-/

namespace WeatherTerminal

namespace Mqtt

open InformationTheory (UniquelyDecodable)

/-! ## Packets on the wire -/

/-- A whole packet: a head, a body of a length that four bytes can tell, and
that length before the body, so that a reader knows where it ends. -/
def Whole (w : List UInt8) : Prop :=
  ∃ head bs, bs.length < 128 ^ 4 ∧ w = packetBytes head bs

/-- The packet of an acknowledgement: a PUBACK with the identifier of the
message it is for. -/
def ackPacket (packetid : ℕ) : List UInt8 := packetBytes (header pubackType 0 0 0) (int2 packetid)

/-- The packet of a ping: a head, and a remaining length of zero. -/
def pingPacket : List UInt8 := packetBytes (header pingreqType 0 0 0) []

/-- An acknowledgement that was cut short: a front of its packet, and not all
of it. -/
def CutAck (w : List UInt8) : Prop := ∃ packetid, w <+: ackPacket packetid ∧ w ≠ ackPacket packetid

/-- How long the packet is that a stream begins with, by the remaining length
that stands in it. -/
def packetSize (l : List UInt8) : ℕ :=
  1 + (Varint.decode 4 1 l.tail).2 + (Varint.decode 4 1 l.tail).1

theorem whole_ne_nil {w : List UInt8} (h : Whole w) : w ≠ [] := by
  obtain ⟨head, bs, -, rfl⟩ := h
  exact List.cons_ne_nil _ _

/-- A stream that begins with a whole packet tells how long it is. -/
theorem packetSize_whole {w : List UInt8} (h : Whole w) (rest : List UInt8) :
    packetSize (w ++ rest) = w.length := by
  obtain ⟨head, bs, hlt, rfl⟩ := h
  rw [length_packetBytes, packetSize, packetBytes, List.cons_append, List.tail_cons,
    List.append_assoc, Varint.decode_encode (by decide) hlt, Nat.mul_one]

/-- Packets on a stream are told apart: two rows of whole packets that make
the same bytes are one. -/
theorem uniquelyDecodable_whole : UniquelyDecodable {w | Whole w} :=
  Frame.uniquelyDecodable_of_size (fun _ hw => packetSize_whole hw) fun _ hw => whole_ne_nil hw

/-- The packet of a message that a send buffer takes is whole. -/
theorem whole_publish {topicMsg : TopicMsg} {topicName : List UInt8}
    (h : topicName.length + topicMsg.payload.length + idBytes topicMsg.qos ≤ 1019) :
    Whole (topicMsg.packet topicName) := by
  refine ⟨_, _, ?_, rfl⟩
  rw [length_publishBody, length_publishRest]
  show 2 + topicName.length + (topicMsg.payload.length + idBytes topicMsg.qos) < 128 ^ 4
  omega

/-- The packet that subscribes to a filter of the length that is checked is
whole. -/
theorem whole_subscribe {packetid : ℕ} {f : List UInt8} {qos : UInt8} (h : f.length ≤ topicMaxlen) :
    Whole (subscribePacket packetid f qos) := by
  refine ⟨_, _, ?_, rfl⟩
  simp only [List.length_append, length_int2, List.length_singleton]
  simp only [topicMaxlen] at h
  omega

theorem whole_unsubscribe {packetid : ℕ} {f : List UInt8} (h : f.length ≤ topicMaxlen) :
    Whole (unsubscribePacket packetid f) := by
  refine ⟨_, _, ?_, rfl⟩
  simp only [List.length_append, length_int2]
  simp only [topicMaxlen] at h
  omega

/-- The packet of an acknowledgement is whole, whatever the identifier. -/
theorem whole_ack (packetid : ℕ) : Whole (ackPacket packetid) :=
  ⟨_, int2 packetid, show 2 < 128 ^ 4 by decide, rfl⟩

/-! ## The CONNECT -/

/-- A string, as `writeMQTTString` writes it: its length in two bytes, then
its bytes. -/
def MQTTString.bytes (s : MQTTString) : List UInt8 :=
  if s.lenstring ≠ [] then int2 s.lenstring.length ++ s.lenstring
  else s.cstring.elim (int2 0) fun c => int2 c.length ++ c

/-- `writeMQTTString` writes a string as a row of those bytes. -/
theorem Out.writeMQTTString_eq {n : ℕ} (o : Out n) (s : MQTTString) :
    o.writeMQTTString s = o.put s.bytes := by
  rw [writeMQTTString, MQTTString.bytes]
  split
  · rw [writeInt_eq, put_put]
  · rcases s.cstring with - | c
    · exact writeInt_eq o 0
    · simp only [writeCString, writeInt_eq, put_put, Option.elim_some]

/-- A C string, or none at all, takes its length and two bytes more. -/
theorem MQTTString.length_bytes {s : MQTTString} (h : s.lenstring = []) :
    s.bytes.length = s.strlen + 2 := by
  rw [bytes, if_neg (not_not.mpr h), strlen]
  rcases s.cstring with - | c
  · rw [h]
    rfl
  · simp only [Option.elim_some, List.length_append, length_int2]
    exact Nat.add_comm _ _

/-- The CONNECT data of a client: one of the two versions, and no string that
comes with a length of its own. -/
structure ConnectData.Plain (d : ConnectData) : Prop where
  version : d.mqttVersion = 3 ∨ d.mqttVersion = 4
  clientID : d.clientID.lenstring = []
  topicName : d.will.topicName.lenstring = []
  message : d.will.message.lenstring = []
  username : d.username.lenstring = []
  password : d.password.lenstring = []

/-- What is behind the head of a CONNECT: protocol and version, the flags, the
interval, and each string that is announced. -/
def connectBody (d : ConnectData) : List UInt8 :=
  (if d.mqttVersion = 4 then int2 4 ++ utf8 "MQTT" ++ [4] else int2 6 ++ utf8 "MQIsdp" ++ [3]) ++
    ([connectFlags d] ++ (int2 d.keepAliveInterval.toNat ++ (d.clientID.bytes ++
      ((if d.willFlag then d.will.topicName.bytes ++ d.will.message.bytes else []) ++
        ((if d.username.present then d.username.bytes else []) ++
          if d.password.present then d.password.bytes else [])))))

/-- The packet of a CONNECT, by the data of the client that connects. -/
def connectPacket (d : ConnectData) : List UInt8 :=
  packetBytes (header connectType 0 0 0) (connectBody d)

theorem length_connectBody {d : ConnectData} (h : d.Plain) :
    (connectBody d).length = connectLength d := by
  have hversion : (if d.mqttVersion = 4 then int2 4 ++ utf8 "MQTT" ++ [4]
      else int2 6 ++ utf8 "MQIsdp" ++ [3] : List UInt8).length + 3 =
        if d.mqttVersion = 3 then 12 else if d.mqttVersion = 4 then 10 else 0 := by
    rcases h.version with hv | hv
    · rw [hv]
      decide
    · rw [hv]
      decide
  have hwill : (if d.willFlag then d.will.topicName.bytes ++ d.will.message.bytes
      else [] : List UInt8).length =
        if d.willFlag then d.will.topicName.strlen + 2 + d.will.message.strlen + 2 else 0 := by
    split
    · rw [List.length_append, MQTTString.length_bytes h.topicName,
        MQTTString.length_bytes h.message, ← Nat.add_assoc]
    · rfl
  have husername : (if d.username.present then d.username.bytes else [] : List UInt8).length =
      if d.username.present then d.username.strlen + 2 else 0 := by
    split
    · exact MQTTString.length_bytes h.username
    · rfl
  have hpassword : (if d.password.present then d.password.bytes else [] : List UInt8).length =
      if d.password.present then d.password.strlen + 2 else 0 := by
    split
    · exact MQTTString.length_bytes h.password
    · rfl
  rw [connectBody, List.length_append, List.length_append, List.length_append, List.length_append,
    List.length_append, List.length_append, hwill, husername, hpassword, length_int2,
    MQTTString.length_bytes h.clientID, List.length_singleton, connectLength, ← hversion]
  omega

/-- `MQTTSerialize_connect` writes the packet of a CONNECT, or finds the
buffer too short. -/
theorem serializeConnect_eq {n : ℕ} (buf : Block n) {d : ConnectData} (h : d.Plain) :
    serializeConnect buf d =
      if n < packetLen (connectLength d) then (bufferTooShort, buf)
      else (((connectPacket d).length : ℤ), buf.storeAll 0 (connectPacket d)) := by
  rw [serializeConnect, connectPacket]
  refine serialize_eq buf _ (fun o => ?_) (length_connectBody h)
  simp only [Out.writeMQTTString_eq, Out.writeCString, Out.writeInt_eq, Out.writeChar_eq,
    Out.put_put, connectBody]
  split <;> split <;> split <;> split <;> simp [List.append_assoc] <;> rfl

/-! ## One call that sends -/

variable {c c' c'' : Session} {packet wire : List UInt8} {rc : ℤ}

/-- What a packet that is sent comes to over the connection: all of it goes
out, or a front of it and an error. -/
theorem sendPacket_cases (c : Session) (hne : packet ≠ []) (ws : List Write) :
    (c.sendPacket packet ws = (true, c.put packet) ∧ c.ipstack ≠ none) ∨
      ∃ wire, wire <+: packet ∧ wire ≠ packet ∧ c.sendPacket packet ws = (false, c.put wire) := by
  have hspec := sendPacket_spec packet (c.writes ws)
  rw [Session.sendPacket]
  rcases hsend : Mqtt.sendPacket packet (c.writes ws) with ⟨wire, - | -⟩
  · rw [hsend] at hspec
    exact Or.inr ⟨wire, hspec.1, fun h => Bool.false_ne_true (hspec.2.mpr h), rfl⟩
  · rw [hsend] at hspec
    have hall : wire = packet := hspec.2.mp rfl
    refine Or.inl ⟨by rw [← hall], fun hnone => hne ?_⟩
    -- without a connection nothing goes out
    rw [Session.writes, if_pos hnone] at hsend
    rw [← hall]
    exact (Prod.mk.inj hsend).1.symm

/-- What a function comes to that sends one packet: it has gone out, a front
of it has and the network failed, or nothing has for another reason. -/
def Sends (packet : List UInt8) (c : Session) (r : ℤ × Session) : Prop :=
  (r = (successReturn, c.put packet) ∧ c.ipstack ≠ none) ∨
    (∃ wire, wire <+: packet ∧ wire ≠ packet ∧ r = (networkError, c.put wire)) ∨
      (r.1 < 0 ∧ r.1 ≠ networkError ∧ r.2 = c)

/-- A function that sends its packet once it is serialized is one of these. -/
theorem sends_sendPacket (c : Session) (hne : packet ≠ []) (ws : List Write) :
    Sends packet c (if (c.sendPacket packet ws).1 = false then
        (networkError, (c.sendPacket packet ws).2)
      else (successReturn, (c.sendPacket packet ws).2)) := by
  rcases sendPacket_cases c hne ws with ⟨h, hsome⟩ | ⟨wire, hbegin, hne, h⟩
  · rw [h]
    exact Or.inl ⟨rfl, hsome⟩
  · rw [h]
    exact Or.inr (Or.inl ⟨wire, hbegin, hne, rfl⟩)

/-- A function that fails before it sends is one of these, too. -/
theorem sends_error {rc : ℤ} (hrc : rc < 0) (hne : rc ≠ networkError) :
    Sends packet c (rc, c) :=
  Or.inr (Or.inr ⟨hrc, hne, rfl⟩)

/-- An acknowledgement in its buffer, which has room for four bytes. -/
theorem serializeAck_eq {n : ℕ} (buf : Block n) (packetid : ℕ) (h : 4 ≤ n) :
    serializeAck buf pubackType 0 packetid =
      (((ackPacket packetid).length : ℤ), buf.storeAll 0 (ackPacket packetid)) := by
  rw [serializeAck, if_neg (Nat.not_lt.mpr h)]
  simp only [Out.writeChar_eq, Out.writeInt_eq, Out.put_put]
  simp only [Out.put, Nat.zero_add]
  rfl

/-- A packet of a head alone in its buffer, which has room for two bytes. -/
theorem serializeZero_eq {n : ℕ} (buf : Block n) (type : UInt8) (h : 2 ≤ n) :
    serializeZero buf type =
      (((packetBytes (header type 0 0 0) []).length : ℤ),
        buf.storeAll 0 (packetBytes (header type 0 0 0) [])) := by
  rw [serializeZero, if_neg (Nat.not_lt.mpr h)]
  simp only [Out.writeChar_eq, Out.put_put]
  simp only [Out.put, Nat.zero_add, packetBytes, List.append_nil]
  rfl

/-- A PUBACK whose buffer is granted goes out as the network takes it. -/
theorem mqttPuback_eq (s : Send) (c : Session) (msgId : ℕ) (hgranted : s.bufGranted = true) :
    mqttPuback s c msgId pubackType =
      if (c.sendPacket (ackPacket msgId) s.writes).1 = false then
        (networkError, (c.sendPacket (ackPacket msgId) s.writes).2)
      else (successReturn, (c.sendPacket (ackPacket msgId) s.writes).2) := by
  have hpos : ¬((ackPacket msgId).length : ℤ) ≤ 0 := by
    rw [ackPacket, length_packetBytes]
    omega
  have htake := (take_serialized (allocSendBuffer 0) (header pubackType 0 0 0) (int2 msgId)
    (show 2 < 128 ^ 4 by decide) (show packetLen 2 ≤ sendSize 0 by decide)).1
  rw [mqttPuback, if_neg (fun h => h rfl), if_neg (by rw [hgranted]; decide),
    serializeAck_eq _ _ (show 4 ≤ sendSize 0 by decide)]
  simp only
  rw [if_neg hpos, Int.toNat_natCast, ackPacket, htake]

/-- `MQTTPuback` sends the acknowledgement or nothing, whatever it is asked
for. -/
theorem mqttPuback_sends (s : Send) (c : Session) (msgId : ℕ) (type : UInt8) :
    Sends (ackPacket msgId) c (mqttPuback s c msgId type) := by
  by_cases htype : type = pubackType
  · by_cases hgranted : s.bufGranted = true
    · rw [htype, mqttPuback_eq s c msgId hgranted]
      exact sends_sendPacket c (List.cons_ne_nil _ _) s.writes
    · rw [mqttPuback, if_neg (not_not.mpr htype), if_pos (Bool.eq_false_of_not_eq_true hgranted)]
      exact sends_error (by decide) (by decide)
  · rw [mqttPuback, if_pos htype]
    exact sends_error (by decide) (by decide)

/-- A ping whose buffer is granted goes out as the network takes it. -/
theorem mqttKeepalive_eq (s : Send) (c : Session) (hgranted : s.bufGranted = true) :
    mqttKeepalive s c =
      if (c.sendPacket pingPacket s.writes).1 = false then
        (networkError, (c.sendPacket pingPacket s.writes).2)
      else (successReturn, (c.sendPacket pingPacket s.writes).2) := by
  have hpos : ¬((packetBytes (header pingreqType 0 0 0) []).length : ℤ) ≤ 0 := by
    rw [length_packetBytes]
    omega
  have htake := (take_serialized (allocSendBuffer 0) (header pingreqType 0 0 0) []
    (show 0 < 128 ^ 4 by decide) (show packetLen 0 ≤ sendSize 0 by decide)).1
  rw [mqttKeepalive, if_neg (by rw [hgranted]; decide), serializePingreq,
    serializeZero_eq _ _ (show 2 ≤ sendSize 0 by decide)]
  simp only
  rw [if_neg hpos, Int.toNat_natCast, htake, pingPacket]

/-- `MQTTKeepalive` sends the ping, a front of it, or nothing. -/
theorem mqttKeepalive_sends (s : Send) (c : Session) : Sends pingPacket c (mqttKeepalive s c) := by
  by_cases hgranted : s.bufGranted = true
  · rw [mqttKeepalive_eq s c hgranted]
    exact sends_sendPacket c (List.cons_ne_nil _ _) s.writes
  · rw [mqttKeepalive, if_pos (Bool.eq_false_of_not_eq_true hgranted)]
    exact sends_error (by decide) (by decide)

/-- A CONNECT whose buffer is granted and large enough goes out as the network
takes it. -/
theorem mqttConnect_eq (s : Send) (c : Session) (h : c.connectData.Plain)
    (hgranted : s.bufGranted = true) (hfits : packetLen (connectLength c.connectData) ≤ 1024) :
    Whole (connectPacket c.connectData) ∧
      mqttConnect s c =
        if (c.sendPacket (connectPacket c.connectData) s.writes).1 = false then
          (networkError, (c.sendPacket (connectPacket c.connectData) s.writes).2)
        else (successReturn, (c.sendPacket (connectPacket c.connectData) s.writes).2) := by
  have hsize : packetLen (connectLength c.connectData) ≤
      sendSize (packetLen (connectLength c.connectData)) := by
    rw [sendSize]
    simp only [messageMaxlen, sendMargin]
    split_ifs <;> omega
  have hlt : (connectBody c.connectData).length < 128 ^ 4 := by
    have : connectLength c.connectData ≤ packetLen (connectLength c.connectData) := by
      unfold packetLen
      simp only
      split_ifs <;> omega
    rw [length_connectBody h]
    omega
  have htake := (take_serialized (allocSendBuffer (packetLen (connectLength c.connectData)))
    (header connectType 0 0 0) (connectBody c.connectData) hlt
    (by rw [length_connectBody h]; exact hsize)).1
  have hpos : ¬((connectPacket c.connectData).length : ℤ) ≤ 0 := by
    rw [connectPacket, length_packetBytes]
    omega
  refine ⟨⟨_, _, hlt, rfl⟩, ?_⟩
  rw [mqttConnect, if_neg (by rw [hgranted]; decide), serializeConnect_eq _ h]
  simp only
  rw [if_neg (Nat.not_lt.mpr hsize)]
  simp only
  rw [if_neg hpos, Int.toNat_natCast, connectPacket, htake]

/-- `MQTTConnect` sends the CONNECT, a front of it, or nothing; where it
succeeds the packet was a whole one. -/
theorem mqttConnect_sends (s : Send) (c : Session) (h : c.connectData.Plain) :
    Sends (connectPacket c.connectData) c (mqttConnect s c) ∧
      ((mqttConnect s c).1 = successReturn → Whole (connectPacket c.connectData)) := by
  by_cases hgranted : s.bufGranted = true
  · by_cases hfits : packetLen (connectLength c.connectData) ≤ 1024
    · obtain ⟨hwhole, heq⟩ := mqttConnect_eq s c h hgranted hfits
      rw [heq]
      exact ⟨sends_sendPacket c (List.cons_ne_nil _ _) s.writes, fun _ => hwhole⟩
    · have hsize := sendSize_le (packetLen (connectLength c.connectData))
      rw [mqttConnect, if_neg (by rw [hgranted]; decide), serializeConnect_eq _ h]
      simp only
      rw [if_pos (show _ < _ by omega), if_pos (show bufferTooShort ≤ 0 by decide)]
      exact ⟨sends_error (by decide) (by decide),
        fun h => absurd h (show connectPacketError ≠ successReturn by decide)⟩
  · rw [mqttConnect, if_pos (Bool.eq_false_of_not_eq_true hgranted)]
    exact ⟨sends_error (by decide) (by decide),
      fun h => absurd h (show failReturn ≠ successReturn by decide)⟩

end Mqtt

end WeatherTerminal
