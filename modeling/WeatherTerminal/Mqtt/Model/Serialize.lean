import WeatherTerminal.Mqtt.Model.Packet
/-!
# MQTT — from a message to the wire

The sending path: a packet is serialized into a buffer of its own size and
written to the network in as many pieces as the network takes. And the
acknowledgements, as they are read.

The `ptr` of a serializer is an offset into its buffer.
-/

namespace WeatherTerminal

namespace Mqtt

/-- `MQTT_DYNBUF_SEND_MARGIN`: what a send buffer has room for beyond topic
and payload. -/
abbrev sendMargin : ℕ := 64

/-- `MQTTPACKET_BUFFER_TOO_SHORT`: the packet does not fit the buffer it is to
be serialized into. -/
abbrev bufferTooShort : ℤ := -2

/-- `CONNACK`, the answer to a CONNECT; the type of a message is
`publishType`. -/
abbrev connackType : UInt8 := 2
/-- `PUBACK`, the acknowledgement of a message of the quality of service 1. -/
abbrev pubackType : UInt8 := 4
/-- `PUBREL`, the one acknowledgement whose header has a quality of service in
it. -/
abbrev pubrelType : UInt8 := 6
/-- `SUBSCRIBE`, the type of the packet that asks for the messages a filter
takes. -/
abbrev subscribeType : UInt8 := 8
/-- `SUBACK`, the answer to a subscription, with the quality that is granted
for it. -/
abbrev subackType : UInt8 := 9
/-- `UNSUBSCRIBE`, the type of the packet that gives the subscription to a
filter up. -/
abbrev unsubscribeType : UInt8 := 10
/-- `UNSUBACK`, the answer to a packet that gives a subscription up. -/
abbrev unsubackType : UInt8 := 11
/-- `PINGREQ`, a packet of two bytes that asks the other side for any answer.
-/
abbrev pingreqType : UInt8 := 12
/-- `PINGRESP`, the answer to a ping, for which any other packet will do as
well. -/
abbrev pingrespType : UInt8 := 13

/-! ## The send buffer -/

/-- The size `_alloc_send_buffer` gives a buffer for `len` bytes: that and the
margin, but never more than a packet may have. -/
def sendSize (len : ℕ) : ℕ :=
  if messageMaxlen < sendMargin + len then messageMaxlen else sendMargin + len

/-- `_alloc_send_buffer`, where the allocation is granted: a buffer of its
size with zeros in it. -/
def allocSendBuffer (len : ℕ) : Block (sendSize len) := Block.filled (sendSize len) 0

/-- A buffer and where the next byte goes, as the `unsigned char **` that the
writing functions move on. -/
structure Out (n : ℕ) where
  buf : Block n
  ptr : ℕ

namespace Out

variable {n : ℕ}

/-- `memcpy` to `ptr`, which then points past what was copied, inside the
buffer or not. -/
def put (o : Out n) (bs : List UInt8) : Out n where
  buf := o.buf.storeAll o.ptr bs
  ptr := o.ptr + bs.length

/-- `writeChar`: one byte to `ptr`, which moves on by one. -/
def writeChar (o : Out n) (c : UInt8) : Out n := o.put [c]

/-- `writeInt`: a number in two bytes, the higher one first, whatever lies
above them left out. -/
def writeInt (o : Out n) (anInt : ℕ) : Out n :=
  (o.writeChar (UInt8.ofNat (anInt / 256))).writeChar (UInt8.ofNat (anInt % 256))

/-- `writeCString`: the length of a string in two bytes, then its bytes
without the NUL. -/
def writeCString (o : Out n) (string : List UInt8) : Out n :=
  (o.writeInt string.length).put string

end Out

/-- `MQTTString`: a C string, or a string that comes with its length; neither
stands for a null pointer. -/
structure MQTTString where
  cstring : Option (List UInt8) := none
  lenstring : List UInt8 := []
deriving DecidableEq, Repr

/-- `writeMQTTString`: the string that has a length first, then the C string,
and for neither of them a length of zero. -/
def Out.writeMQTTString {n : ℕ} (o : Out n) (s : MQTTString) : Out n :=
  if s.lenstring ≠ [] then (o.writeInt s.lenstring.length).put s.lenstring
  else match s.cstring with
    | some c => o.writeCString c
    | none => o.writeInt 0

/-- `MQTTstrlen`: the length of the C string where there is one, else that
which the other string comes with. -/
def MQTTString.strlen (s : MQTTString) : ℕ :=
  match s.cstring with
  | some c => c.length
  | none => s.lenstring.length

/-! ## Serializing -/

/-- `MQTTPacket_len`: the length of a whole packet, with its head and the
bytes of its remaining length, whose last bound is one byte off. -/
def packetLen (remLen : ℕ) : ℕ :=
  let remLen := remLen + 1
  if remLen < 128 then remLen + 1
  else if remLen < 16384 then remLen + 2
  else if remLen < 2097151 then remLen + 3
  else remLen + 4

/-- `MQTT_HEADER_SET_TYPE`, `_DUP`, `_QOS` and `_RETAIN`, one after the other,
on a header that is zero. -/
def header (type dup qos retained : UInt8) : UInt8 :=
  ((type <<< (4 : UInt8)) &&& 0xF0) ||| ((dup <<< (3 : UInt8)) &&& 0x08) |||
    ((qos <<< (1 : UInt8)) &&& 0x06) ||| (retained &&& 0x01)

/-- What every serializer begins with: whether the packet fits its buffer,
the header and the remaining length. `body` writes what follows, and the
result is the length of the packet. -/
def serialize {n : ℕ} (buf : Block n) (head : UInt8) (remLen : ℕ) (body : Out n → Out n) :
    ℤ × Block n :=
  if n < packetLen remLen then (bufferTooShort, buf)
  else
    let o := body (((⟨buf, 0⟩ : Out n).writeChar head).put (Varint.encode remLen))
    ((o.ptr : ℤ), o.buf)

/-- `MQTTSerialize_publishLength`: topic with its length, payload, and the
identifier where the quality of service asks for one. -/
def publishLength (qos : UInt8) (topicName : MQTTString) (payloadlen : ℕ) : ℕ :=
  2 + topicName.strlen + payloadlen + if qos > 0 then 2 else 0

/-- `MQTTSerialize_publish`: the header, the topic, the identifier of a
message that is to be acknowledged, and the payload. -/
def serializePublish {n : ℕ} (buf : Block n) (dup qos retained : UInt8) (packetid : ℕ)
    (topicName : MQTTString) (payload : List UInt8) : ℤ × Block n :=
  serialize buf (header publishType dup qos retained)
    (publishLength qos topicName payload.length) fun o =>
      let o := o.writeMQTTString topicName
      let o := if qos > 0 then o.writeInt packetid else o
      o.put payload

/-- `MQTTSerialize_subscribeLength`: the identifier, and each filter with its
length and the quality that is asked for. -/
def subscribeLength (topicFilters : List (MQTTString × UInt8)) : ℕ :=
  topicFilters.foldl (fun len f => len + (2 + f.1.strlen + 1)) 2

/-- `MQTTSerialize_subscribe`; each filter with the quality of service that
is asked for it. -/
def serializeSubscribe {n : ℕ} (buf : Block n) (dup : UInt8) (packetid : ℕ)
    (topicFilters : List (MQTTString × UInt8)) : ℤ × Block n :=
  serialize buf (header subscribeType dup 1 0) (subscribeLength topicFilters) fun o =>
    topicFilters.foldl (fun o f => (o.writeMQTTString f.1).writeChar f.2) (o.writeInt packetid)

/-- `MQTTSerialize_unsubscribeLength`: the identifier, and each filter with
its length. -/
def unsubscribeLength (topicFilters : List MQTTString) : ℕ :=
  topicFilters.foldl (fun len f => len + (2 + f.strlen)) 2

/-- `MQTTSerialize_unsubscribe`: the header, the identifier, and the filters
that are given up. -/
def serializeUnsubscribe {n : ℕ} (buf : Block n) (dup : UInt8) (packetid : ℕ)
    (topicFilters : List MQTTString) : ℤ × Block n :=
  serialize buf (header unsubscribeType dup 1 0) (unsubscribeLength topicFilters) fun o =>
    topicFilters.foldl Out.writeMQTTString (o.writeInt packetid)

/-- `MQTTSerialize_ack`, which looks at the size of its buffer by itself: a
header and an identifier, four bytes in all. -/
def serializeAck {n : ℕ} (buf : Block n) (packettype dup : UInt8) (packetid : ℕ) : ℤ × Block n :=
  if n < 4 then (bufferTooShort, buf)
  else
    let head := header packettype dup (if packettype = pubrelType then 1 else 0) 0
    let o := (((⟨buf, 0⟩ : Out n).writeChar head).put (Varint.encode 2)).writeInt packetid
    ((o.ptr : ℤ), o.buf)

/-- `MQTTSerialize_zero`: a packet of nothing but its header and a remaining
length of zero. -/
def serializeZero {n : ℕ} (buf : Block n) (packettype : UInt8) : ℤ × Block n :=
  if n < 2 then (bufferTooShort, buf)
  else
    let o := ((⟨buf, 0⟩ : Out n).writeChar (header packettype 0 0 0)).put (Varint.encode 0)
    ((o.ptr : ℤ), o.buf)

/-- `MQTTSerialize_pingreq`: the packet without a body that asks for an
answer. -/
def serializePingreq {n : ℕ} (buf : Block n) : ℤ × Block n := serializeZero buf pingreqType

/-! ## Sending -/

/-- What a call of `ipstack.write` meets: how many bytes the network takes at
most, or that it fails. -/
inductive Write
  | wrote (k : ℕ)
  /-- A negative return code. -/
  | fail
deriving DecidableEq, Repr

/-- `iotx_mc_send_packet` of what is left of a packet: what goes out on the
wire, and whether all of it did. Where there are no more calls the timer
has expired. -/
def sendPacket (left : List UInt8) : List Write → List UInt8 × Bool
  | [] => ([], left.isEmpty)
  | .fail :: _ => ([], left.isEmpty)
  | .wrote k :: writes =>
      if left = [] then ([], true)
      else
        let (wire, sent) := sendPacket (left.drop k) writes
        (left.take k ++ wire, sent)

/-! ## Reading an acknowledgement -/

/-- What `MQTTDeserialize_ack` finds; an identifier it has not come to is
left as it was. -/
structure Ack where
  packettype : UInt8
  dup : UInt8
  packetid : Option ℕ
deriving DecidableEq, Repr

/-- `MQTTDeserialize_ack`: its result code, 1 being success, and what it
has found. An acknowledgement that is too short leaves the length of the
remaining length as the code. -/
def deserializeAck (mem : List UInt8) : ℕ × Ack :=
  let head := mem.headD 0
  let ack : Ack := { packettype := headerType head, dup := (head &&& 0x08) >>> 3, packetid := none }
  let (mylen, rc) := Varint.decode 4 1 (mem.drop 1)
  let curdata := 1 + rc
  if mylen < 2 then (rc, ack)
  else (1, { ack with packetid := some (readInt mem curdata) })

end Mqtt

end WeatherTerminal
