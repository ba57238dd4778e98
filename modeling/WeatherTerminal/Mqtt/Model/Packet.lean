import WeatherTerminal.Common.Block
import WeatherTerminal.Common.Varint
import Mathlib.Data.Int.Notation
/-!
# MQTT — from the wire to the handler

The receive path of the client: `iotx_mc_read_packet` reads a packet into
a buffer of its own size, `MQTTDeserialize_publish` finds topic and payload
in it, `iotx_mc_deliver_message` hands the message to the handler of its
topic or else to `mqtt_main_event_handle`, and `mqtt_recv_handle` copies
the payload. What the network delivers, whether the allocations are
granted, and what stands in memory behind the buffer are inputs.

An offset into the buffer stands for a pointer; memory is read as one list,
the buffer and what follows it.
-/

namespace WeatherTerminal

namespace Mqtt

/-- `CONFIG_MQTT_MESSAGE_MAXLEN`: what the receive buffer may grow to,
`mqtt_main_init` asking for no size of its own. -/
abbrev messageMaxlen : ℕ := 1024

/-- `MQTT_DYNBUF_RECV_MARGIN`: what a receive buffer has room for beyond the
packet it is asked for. -/
abbrev recvMargin : ℕ := 8

/-- `FAIL_RETURN`: a buffer that is not granted, a read that times out in the
middle of a packet, and whatever has no code of its own. -/
abbrev failReturn : ℤ := -1
/-- `MQTTPACKET_READ_ERROR`: a remaining length that does not end with its
fourth byte. -/
abbrev packetReadError : ℤ := -1
/-- `MQTT_NETWORK_ERROR`: the network has failed in a read or in a write, upon
which most callers disconnect the client. -/
abbrev networkError : ℤ := -14
/-- `MQTT_PUBLISH_PACKET_ERROR`: a PUBLISH that cannot be read, or one that
cannot be serialized. -/
abbrev publishPacketError : ℤ := -21

/-! ## The receive buffer -/

/-- The size `_alloc_recv_buffer` gives a buffer for `len` bytes: that and the
margin, but never more than a packet may have. -/
def recvSize (len : ℕ) : ℕ :=
  if messageMaxlen < recvMargin + len then messageMaxlen else recvMargin + len

/-- `_alloc_recv_buffer`, where the allocation is granted: cleared, and
the bytes of the buffer before it copied. -/
def allocRecvBuffer (old : List UInt8) (len : ℕ) : Block (recvSize len) :=
  (Block.filled (recvSize len) 0).storeAll 0 (old.take (recvSize len))

/-! ## The network -/

/-- What a call of `ipstack.read` meets: some bytes that have come, or a
network that fails. -/
inductive Arrival
  | bytes (bs : List UInt8)
  /-- A negative return code. -/
  | fail
deriving DecidableEq, Repr

/-- `ipstack.read` of up to `want` bytes, `none` being an error. What it
does not take of an arrival stays; where nothing more arrives it times out
with no bytes. -/
def ipRead (want : ℕ) : List Arrival → Option (List UInt8) × List Arrival
  | [] => (some [], [])
  | .bytes bs :: net =>
      (some (bs.take want), if bs.length ≤ want then net else .bytes (bs.drop want) :: net)
  | .fail :: net => (none, net)

/-- `iotx_mc_decode_packet`: the remaining length, read off the network byte
by byte, seven bits in each and four bytes at most. -/
def decodePacket : ℕ → ℕ → List Arrival → Except ℤ (ℕ × List Arrival)
  | 0, _, _ => .error packetReadError
  | fuel + 1, multiplier, net =>
      match ipRead 1 net with
      | (none, _) => .error networkError
      | (some [], _) => .error failReturn
      | (some (i :: _), net) =>
          if i &&& 128 ≠ 0 then do
            let (value, net) ← decodePacket fuel (multiplier * 128) net
            return ((i &&& 127).toNat * multiplier + value, net)
          else return ((i &&& 127).toNat * multiplier, net)

/-! ## Reading a packet -/

/-- What a call of `iotx_mc_read_packet` meets: what the network delivers, and
which of its three allocations are granted. -/
structure Incoming where
  /-- What is left in the buffer of an earlier packet. -/
  left : List UInt8
  net : List Arrival
  /-- The allocations are granted: the buffer for the header, that for the
  packet, and that for what is dropped of it. -/
  headGranted : Bool
  packetGranted : Bool
  dropGranted : Bool
deriving DecidableEq, Repr

/-- A packet in the buffer, with the lengths of its head and of the rest. -/
structure Received where
  type : UInt8
  len : ℕ
  remLen : ℕ
  buf : Block (recvSize (remLen + len))

/-- How a call of `iotx_mc_read_packet` ends: with a result code below zero,
with nothing to handle, or with a packet in the buffer. -/
inductive Outcome
  | failed (rc : ℤ)
  /-- `MQTT_CPT_RESERVED`: nothing arrived, or a packet that was dropped. -/
  | reserved
  | packet (p : Received)

/-- `MQTT_HEADER_GET_TYPE`: the upper four bits of the first byte of a packet.
-/
def headerType (head : UInt8) : UInt8 := (head &&& 0xF0) >>> 4

/-- A packet that is longer than the buffer may be: its bytes are read and
dropped. -/
def dropPacket (r : Incoming) (needReadLen remainDataLen : ℕ) (net : List Arrival) : Outcome :=
  match ipRead needReadLen net with
  | (none, _) => .failed networkError
  | (some bs, net) =>
      if bs.length ≠ needReadLen then .failed failReturn
      else if r.dropGranted = false then .failed failReturn
      else match ipRead remainDataLen net with
        | (none, _) => .failed networkError
        | (some bs, _) =>
            if bs.length ≠ remainDataLen then .failed failReturn else .reserved

/-- A NUL at `k`, behind what has been read, where the buffer has room for it.
-/
def terminate {n : ℕ} (buf : Block n) (k : ℕ) : Block n :=
  if k < n then buf.store k 0 else buf

/-- The bytes behind the head are stored, and the NUL behind them where there
is room: the packet is whole. -/
def storeRest (remLen len : ℕ) (buf : Block (recvSize (remLen + len))) (bs : List UInt8) :
    Received :=
  let buf := buf.storeAll len bs
  { type := headerType (buf.bytes.headD 0)
    len := len
    remLen := remLen
    buf := terminate buf (len + remLen) }

/-- `iotx_mc_read_packet`: a byte for the head, the remaining length, and the
rest in one read, into a buffer that is allocated anew once its length is
known. -/
def readPacket (r : Incoming) : Outcome :=
  if r.headGranted = false then .failed failReturn
  else match ipRead 1 r.net with
    | (some [], _) => .reserved
    | (none, _) => .failed networkError
    | (some (head :: _), net) =>
        match decodePacket 4 1 net with
        | .error rc => .failed rc
        | .ok (remLen, net) =>
            let buf := ((allocRecvBuffer r.left 0).store 0 head).storeAll 1 (Varint.encode remLen)
            let len := 1 + (Varint.encode remLen).length
            if r.packetGranted = false then .failed failReturn
            else
              let buf := allocRecvBuffer buf.bytes (remLen + len)
              if 0 < remLen ∧ recvSize (remLen + len) < remLen + len then
                dropPacket r (recvSize (remLen + len) - len)
                  (remLen - (recvSize (remLen + len) - len)) net
              else match ipRead remLen net with
                | (none, _) =>
                    if 0 < remLen then .failed networkError
                    else .packet (storeRest remLen len buf [])
                | (some bs, _) =>
                    if 0 < remLen ∧ bs.length ≠ remLen then .failed failReturn
                    else .packet (storeRest remLen len buf bs)

/-! ## Finding the message -/

/-- What `MQTTDeserialize_publish` finds in a packet, topic and payload by
where they start in the buffer; null pointers are `none`. -/
structure Publish where
  dup : UInt8 := 0
  qos : UInt8 := 0
  retained : UInt8 := 0
  packetId : ℕ := 0
  topicLen : ℕ := 0
  topicData : Option ℕ := none
  payload : Option ℕ := none
  payloadLen : ℤ := 0
deriving DecidableEq, Repr

/-- `readInt`: the two bytes at `p`, the higher one first, as a number. -/
def readInt (mem : List UInt8) (p : ℕ) : ℕ :=
  256 * (mem.getD p 0).toNat + (mem.getD (p + 1) 0).toNat

/-- `PUBLISH`, the type of the packet that carries a message in either
direction. -/
abbrev publishType : UInt8 := 3

/-- `MQTTDeserialize_publish`: its result code, 1 being success, and what
it has found. A topic that does not fit leaves the length of the remaining
length as the code. -/
def deserializePublish (mem : List UInt8) : ℕ × Publish :=
  let header := mem.headD 0
  if headerType header ≠ publishType then (0, {})
  else
    let msg : Publish := { dup := (header &&& 0x08) >>> 3, qos := (header &&& 0x06) >>> 1,
                           retained := header &&& 0x01 }
    let (mylen, rc) := Varint.decode 4 1 (mem.drop 1)
    let curdata := 1 + rc
    let enddata := curdata + mylen
    -- `readMQTTLenString`
    if enddata - curdata ≤ 1 then (rc, msg)
    else
      let msg := { msg with topicLen := readInt mem curdata }
      let curdata := curdata + 2
      if enddata < curdata + msg.topicLen then (rc, msg)
      else
        let msg := { msg with topicData := some curdata }
        let curdata := curdata + msg.topicLen
        -- no look at `enddata` for the packet identifier
        let (packetId, curdata) :=
          if msg.qos > (0 : UInt8) then (readInt mem curdata, curdata + 2) else (0, curdata)
        (1, { msg with packetId := packetId, payloadLen := (enddata : ℤ) - curdata,
                       payload := some curdata })

/-! ## Delivering it -/

/-- `iotx_mc_is_topic_matched`: filter and topic are walked byte by byte, and
both must come to their end together. -/
def isTopicMatched : List UInt8 → List UInt8 → Bool
  | [], name => name.isEmpty
  | _ :: _, [] => false
  | f :: filter, c :: name =>
      if c = 0x2F ∧ f ≠ 0x2F then false
      else if f ≠ 0x2B ∧ f ≠ 0x23 ∧ f ≠ c then false
      -- `+` takes what is left of the level, `#` what is left of the name
      else if f = 0x2B then isTopicMatched filter (name.dropWhile (· ≠ 0x2F))
      else if f = 0x23 then isTopicMatched filter []
      else isTopicMatched filter name

/-- A topic that one of the subscriptions takes: by `MQTTPacket_equals` or
by `iotx_mc_is_topic_matched`. -/
def taken (filters : List (List UInt8)) (topic : List UInt8) : Bool :=
  filters.any fun f => f == topic || isTopicMatched f topic

/-- `iotx_mqtt_topic_info_t` as the handler of a message gets it: where topic
and payload are, the length of the payload as a `uint32_t`. -/
structure TopicInfo where
  ptopic : ℕ
  topicLen : ℕ
  payload : ℕ
  payloadLen : ℕ
deriving DecidableEq, Repr

/-- `iotx_mc_handle_recv_PUBLISH` up to the delivery: the message that
`mqtt_main_event_handle` gets, if no subscription takes it. -/
def handleRecvPublish (filters : List (List UInt8)) (mem : List UInt8) :
    Except ℤ (Option TopicInfo) :=
  let (rc, msg) := deserializePublish mem
  if rc ≠ 1 then .error publishPacketError
  else match msg.topicData with
    | none => .error publishPacketError
    | some data =>
        if msg.topicLen = 0 then .error publishPacketError
        else if taken filters ((mem.drop data).take msg.topicLen) then .ok none
        else .ok (some { ptopic := data, topicLen := msg.topicLen, payload := msg.payload.getD 0,
                         payloadLen := (msg.payloadLen % 2 ^ 32).toNat })

/-! ## Copying the payload -/

/-- The block `mqtt_recv_handle` allocates for the payload, a byte more than
its length as a `uint32_t`, cleared, and filled by `rt_strcpy`. -/
def recvCopy (payloadLen : ℕ) (src : List UInt8) : Block ((payloadLen + 1) % 2 ^ 32) :=
  (Block.filled ((payloadLen + 1) % 2 ^ 32) 0).strcpy 0 (cstrOf src)

end Mqtt

end WeatherTerminal
