import WeatherTerminal.Mqtt.Model.Connect
import WeatherTerminal.Mqtt.Model.Subscription
/-!
# MQTT — the session

The client with its connection: `wrapper_mqtt_connect` makes it,
`wrapper_mqtt_yield` keeps it alive, reads what comes in, acknowledges it
and, once the connection is lost, makes another.

What has gone out over the open connection is kept send by send. A
connection that is not there takes nothing and gives an error. The handlers
of the application do not call the client.
-/

namespace WeatherTerminal

namespace Mqtt

/-- `MQTT_PUBLISH_ACK_TYPE_ERROR`: an acknowledgement was asked for that is no
PUBACK, as that of a message of the quality of service 2. -/
abbrev publishAckTypeError : ℤ := -13
/-- `MQTT_UNSUBSCRIBE_ACK_PACKET_ERROR`: an UNSUBACK that cannot be read as
one. -/
abbrev unsubscribeAckPacketError : ℤ := -15
/-- `MQTT_SUBSCRIBE_ACK_PACKET_ERROR`: a SUBACK that grants more than there is
room for. -/
abbrev subscribeAckPacketError : ℤ := -25
/-- `MQTT_PING_PACKET_ERROR`: the ping does not fit the buffer it is
serialized into. -/
abbrev pingPacketError : ℤ := -31
/-- `MQTT_CONNECT_BLOCK`: a result a try to reconnect could have, which no
function of this client returns. -/
abbrev connectBlock : ℤ := -44

/-- `MQTT_CPT_RESERVED`, as which a round takes what is no packet: nothing,
one that was dropped, and one of this very type. -/
abbrev reservedType : UInt8 := 0

/-- `IOTX_MC_KEEPALIVE_PROBE_MAX`: how many pings may be without an answer
before the connection is given up. -/
abbrev keepaliveProbeMax : UInt8 := 2

/-- `IOTX_MC_RECONNECT_INTERVAL_MIN_MS`: how long a client waits for its first
try to reconnect. -/
abbrev reconnectIntervalMinMs : UInt32 := 1000
/-- `IOTX_MC_RECONNECT_INTERVAL_MAX_MS`: how long it waits at most, however
many tries have failed. -/
abbrev reconnectIntervalMaxMs : UInt32 := 60000

/-- `MUTLI_SUBSCIRBE_MAX`: how many granted qualities of one SUBACK the client
has room for. -/
abbrev mutliSubscirbeMax : ℕ := 5

/-- `iotx_mc_client_t`, with its connection: what each call of
`iotx_mc_send_packet` has put out over it, if there is one. -/
structure Session extends Subscriber where
  connectData : ConnectData
  keepaliveProbes : UInt8
  nextPingTime : UInt32
  reconnectNextTime : UInt32
  reconnectTimeIntervalMs : UInt32
  ipstack : Option (List (List UInt8))
deriving DecidableEq, Repr

/-- `utils_time_is_expired`: the clock is past the timer by less than half of
the way round, less a millisecond. -/
def timeIsExpired (timer now : UInt32) : Bool := now - timer < 0x7FFFFFFF

/-- `utils_time_countdown_ms`: the timer that expires so many milliseconds
from now, on the clock that wraps. -/
def timeCountdownMs (now millisecond : UInt32) : UInt32 := now + millisecond

namespace Session

/-- `iotx_mc_set_client_state`: the client with another state, all else as it
is. -/
def setClientState (c : Session) (s : ClientState) : Session := { c with clientState := s }

/-! ## The connection -/

/-- What the network takes, where there is a connection; a write over none is
an error at once. -/
def writes (c : Session) (ws : List Write) : List Write := if c.ipstack = none then [.fail] else ws

/-- What the network delivers, where there is a connection; a read over none
is an error at once. -/
def net (c : Session) (net : List Arrival) : List Arrival :=
  if c.ipstack = none then [.fail] else net

/-- Bytes that go out over the connection, behind what has gone out before;
none are no sending. -/
def put (c : Session) (wire : List UInt8) : Session :=
  if wire = [] then c else { c with ipstack := c.ipstack.map (· ++ [wire]) }

/-- `iotx_mc_send_packet`, true being `SUCCESS_RETURN`: what the network takes
of the packet is put out, all of it or a front. -/
def sendPacket (c : Session) (packet : List UInt8) (ws : List Write) : Bool × Session :=
  let (wire, sent) := Mqtt.sendPacket packet (c.writes ws)
  (sent, c.put wire)

/-- `ipstack.connect`. The null handle of `HAL_TCP_Establish` is not the
`-1` that `connect_tcp` looks for, so that it reports success. -/
def netConnect (c : Session) (established : Bool) : ℤ × Session :=
  (successReturn, { c with ipstack := if established then some [] else none })

/-- `ipstack.disconnect`: there is no connection any more, and nothing is
known of what it has carried. -/
def netDisconnect (c : Session) : Session := { c with ipstack := none }

end Session

/-! ## Sending -/

/-- What a call that sends a packet meets: whether its buffer is granted,
and what the network takes. -/
structure Send where
  bufGranted : Bool
  writes : List Write
deriving DecidableEq, Repr

/-- `MQTTPuback`, of an acknowledgement `type`: only a PUBACK is serialized
and sent. -/
def mqttPuback (s : Send) (c : Session) (msgId : ℕ) (type : UInt8) : ℤ × Session :=
  if type ≠ pubackType then (publishAckTypeError, c)
  else if s.bufGranted = false then (failReturn, c)
  else
    let (len, bufSend) := serializeAck (allocSendBuffer 0) pubackType 0 msgId
    if len ≤ 0 then (publishAckPacketError, c)
    else
      let (sent, c) := c.sendPacket (bufSend.bytes.take len.toNat) s.writes
      if sent = false then (networkError, c) else (successReturn, c)

/-- `MQTTKeepalive`: the ping is serialized into a buffer of its own and sent,
the answer being waited for by nobody. -/
def mqttKeepalive (s : Send) (c : Session) : ℤ × Session :=
  if s.bufGranted = false then (failReturn, c)
  else
    let (len, bufSend) := serializePingreq (allocSendBuffer 0)
    if len ≤ 0 then (pingPacketError, c)
    else
      let (sent, c) := c.sendPacket (bufSend.bytes.take len.toNat) s.writes
      if sent = false then (networkError, c) else (successReturn, c)

/-- `MQTTConnect`: the CONNECT that tells the data of the client is serialized
and sent. -/
def mqttConnect (s : Send) (c : Session) : ℤ × Session :=
  if s.bufGranted = false then (failReturn, c)
  else
    let (len, bufSend) :=
      serializeConnect (allocSendBuffer (packetLen (connectLength c.connectData))) c.connectData
    if len ≤ 0 then (connectPacketError, c)
    else
      let (sent, c) := c.sendPacket (bufSend.bytes.take len.toNat) s.writes
      if sent = false then (networkError, c) else (successReturn, c)

/-! ## Connecting -/

/-- What a call of `iotx_mc_read_packet` meets, and what stands in memory
behind its buffer. -/
structure Reading where
  incoming : Incoming
  behind : List UInt8

/-- `iotx_mc_read_packet`, over the connection of the session: a packet, none,
or a result code. -/
def Session.readPacket (c : Session) (r : Reading) : Outcome :=
  Mqtt.readPacket { r.incoming with net := c.net r.incoming.net }

/-- `iotx_mc_wait_CONNACK`, with the number of packets it may still read
for another one. -/
def waitConnack (c : Session) : ℕ → (ℕ → Reading) → ℤ
  | 0, reading =>
      match c.readPacket (reading 0) with
      | .failed rc => rc
      | _ => networkError
  | k + 1, reading =>
      match c.readPacket (reading 0) with
      | .failed rc => rc
      | .reserved => waitConnack c k fun i => reading (i + 1)
      | .packet p =>
          if p.type = connackType then handleRecvConnack (p.buf.bytes ++ (reading 0).behind)
          else waitConnack c k fun i => reading (i + 1)

/-- `WAIT_CONNACK_MAX`: how many packets may come before the CONNACK. -/
abbrev waitConnackMax : ℕ := 10

/-- What a try of `_mqtt_connect` meets: its CONNECT, the packets it reads,
and the connection behind a try that fails. -/
structure Try where
  connect : Send
  reading : ℕ → Reading
  /-- The connection that is made for the next try. -/
  established : Bool
  /-- The time when the try has succeeded. -/
  now : UInt32

/-- The tries of `_mqtt_connect`, with the interval that its CONNECT is to
name from the second one on. -/
def mqttConnectTries (userKeepAliveInterval : UInt16) (c : Session) :
    ℕ → (ℕ → Try) → ℤ × Session
  | 0, _ => (connectError, c)
  | k + 1, tries =>
      let (rc, c) := mqttConnect (tries 0).connect c
      let c := { c with connectData.keepAliveInterval := userKeepAliveInterval }
      if rc ≠ successReturn then (rc, c.netDisconnect)
      else
        let rc := waitConnack c waitConnackMax (tries 0).reading
        if rc ≤ connackNotAuthorizedError ∧ conanckUnacceptableProtocolVersionError ≤ rc then
          (connectError, c.netDisconnect)
        else if rc ≠ successReturn then
          mqttConnectTries userKeepAliveInterval
            (c.netDisconnect.netConnect (tries 0).established).2 k fun i => tries (i + 1)
        else
          (successReturn,
            { c.setClientState .connected with
              keepaliveProbes := 0
              nextPingTime := timeCountdownMs (tries 0).now
                (c.connectData.keepAliveInterval.toUInt32 * 1000) })

/-- The tries `RETRY_TIME_LIMIT` leaves, the counter being compared before it
is moved on. -/
abbrev retryTimes : ℕ := 8

/-- `_mqtt_connect`: the first CONNECT names the longest interval there is,
the ones behind it that of the client. -/
def mqttConnectWith (tries : ℕ → Try) (c : Session) : ℤ × Session :=
  mqttConnectTries c.connectData.keepAliveInterval
    { c with connectData.keepAliveInterval := keepaliveIntervalMax } retryTimes tries

/-- The first loop of `wrapper_mqtt_connect`, which makes the TCP connection
and would try again where that fails. -/
def establish (c : Session) : ℕ → (ℕ → Bool) → Session
  | 0, _ => c
  | k + 1, established =>
      match c.netConnect (established 0) with
      | (rc, c) =>
          if rc ≠ successReturn then establish c.netDisconnect k fun i => established (i + 1)
          else c

/-- What a call of `wrapper_mqtt_connect` meets: the TCP connections it makes,
and its tries over them. -/
structure Connecting where
  established : ℕ → Bool
  tries : ℕ → Try

/-- `wrapper_mqtt_connect`, which goes on to its CONNECT whatever its first
loop has come to. -/
def wrapperMqttConnect (e : Connecting) (c : Session) : ℤ × Session :=
  mqttConnectWith e.tries (establish c 3 e.established)

/-! ## One packet -/

/-- `MQTTDeserialize_suback`: its result code, and what is granted, of which
there is room for five. -/
def deserializeSuback (mem : List UInt8) : ℤ × List UInt8 :=
  if headerType (mem.headD 0) ≠ subackType then (0, [])
  else
    let (mylen, rc) := Varint.decode 4 1 (mem.drop 1)
    if mylen < 2 then (rc, [])
    else
      let granted := (mem.drop (1 + rc + 2)).take (mylen - 2)
      if mutliSubscirbeMax < granted.length then (-1, granted.take mutliSubscirbeMax)
      else (1, granted)

/-- The result code of `iotx_mc_handle_recv_SUBACK`, an error only where more
is granted than there is room for. -/
def handleRecvSuback (mem : List UInt8) : ℤ :=
  if (deserializeSuback mem).1 < 0 then subscribeAckPacketError else successReturn

/-- The result code of `iotx_mc_handle_recv_UNSUBACK`: by its type alone
`MQTTDeserialize_unsuback` takes an acknowledgement for a whole one. -/
def handleRecvUnsuback (mem : List UInt8) : ℤ :=
  let (rc, ack) := deserializeAck mem
  if rc ≠ 1 ∧ ack.packettype ≠ unsubackType then unsubscribeAckPacketError else successReturn

/-- What a round of the client meets: what it reads, what its
acknowledgement meets and, in a PUBACK without one, what the variable of
its identifier holds; and what `MQTTPubInfoProc` meets. -/
structure Round where
  reading : Reading
  ack : Send
  mypacketid : UInt16
  visit : ℕ → Visit

/-- `iotx_mc_handle_recv_PUBLISH`: the message is delivered, and then
acknowledged as its quality of service asks. -/
def handleRecvPublishAck (r : Round) (c : Session) (mem : List UInt8) : ℤ × Session :=
  match handleRecvPublish (c.listSubHandle.map (·.topicFilter)) mem with
  | .error rc => (rc, c)
  | .ok _ =>
      let (_, msg) := deserializePublish mem
      if msg.qos = 0 then (successReturn, c)
      else if msg.qos = 1 then mqttPuback r.ack c msg.packetId pubackType
      -- `PUBREC`, which is not among the types `MQTTPuback` knows
      else if msg.qos = 2 then mqttPuback r.ack c msg.packetId 5
      else (publishQosError, c)

/-- `iotx_mc_cycle`: a connection with too many pings unanswered is given up,
a packet is read all the same, and handled by its type. -/
def cycle (r : Round) (c : Session) : ℤ × Session :=
  if c.clientState ≠ .connected then (stateError, c)
  else
    let c :=
      if keepaliveProbeMax < c.keepaliveProbes then
        { c.setClientState .disconnected with keepaliveProbes := 0 }
      else c
    match c.readPacket r.reading with
    | .failed rc => (networkError, if rc = networkError then c.setClientState .disconnected else c)
    | .reserved => (successReturn, c)
    | .packet p =>
        -- a packet of that type looks like none at all
        if p.type = reservedType then (successReturn, c)
        else
          let c := { c with keepaliveProbes := 0 }
          let mem := p.buf.bytes ++ r.reading.behind
          if p.type = connackType then (successReturn, c)
          else if p.type = pubackType then
            let (rc, client) := handleRecvPuback c.toClient mem r.mypacketid
            (rc, { c with toClient := client })
          else if p.type = subackType then (handleRecvSuback mem, c)
          else if p.type = publishType then handleRecvPublishAck r c mem
          else if p.type = unsubackType then (handleRecvUnsuback mem, c)
          else if p.type = pingrespType then (successReturn, c)
          else (failReturn, c)

/-- `MQTTPubInfoProc`, over the connection: what is sent again goes out behind
what has gone out before. -/
def Session.pubInfoProc (c : Session) (visit : ℕ → Visit) : Session :=
  let (client, again) := Mqtt.pubInfoProc c.toClient fun k =>
    { visit k with state := c.clientState, writes := c.writes (visit k).writes }
  again.foldl (fun c x => c.put x.2) { c with toClient := client }

/-- The rounds of `_mqtt_cycle`, as many as its time allows; behind one that
succeeds the overdue messages are sent again. -/
def mqttCycle (c : Session) : List Round → Session
  | [] => c
  | r :: rounds =>
      let (rc, c) := cycle r c
      mqttCycle (if rc = successReturn then c.pubInfoProc r.visit else c) rounds

/-! ## Keeping alive -/

/-- What a call of `iotx_mc_keepalive` meets: the ping and its times, and a
reconnection with its times. -/
structure Keeping where
  pingNow : UInt32
  pingNext : UInt32
  ping : Send
  reconnectNow : UInt32
  connecting : Connecting
  reconnectNext : UInt32

/-- `iotx_mc_keepalive_sub`: a ping that is due is sent and counted, the next
one set first; the network failing disconnects the client. -/
def keepaliveSub (k : Keeping) (c : Session) : ℤ × Session :=
  if c.clientState ≠ .connected then (successReturn, c)
  else if timeIsExpired c.nextPingTime k.pingNow = false then (successReturn, c)
  else
    let c :=
      { c with
        nextPingTime := timeCountdownMs k.pingNext
          (c.connectData.keepAliveInterval.toUInt32 * 1000) }
    let (rc, c) := mqttKeepalive k.ping c
    if rc ≠ successReturn then
      (rc, if rc = networkError then c.setClientState .disconnected else c)
    else (successReturn, { c with keepaliveProbes := c.keepaliveProbes + 1 })

/-- `iotx_mc_attempt_reconnect`: what is left of the connection is closed, and
another one is made. -/
def attemptReconnect (e : Connecting) (c : Session) : ℤ × Session :=
  wrapperMqttConnect e c.netDisconnect

/-- `iotx_mc_handle_reconnect`: a try that is due, and where it fails the time
of the next one, at twice the distance up to a minute. -/
def handleReconnect (k : Keeping) (c : Session) : ℤ × Session :=
  if timeIsExpired c.reconnectNextTime k.reconnectNow = false then (failReturn, c)
  else
    let (rc, c) := attemptReconnect k.connecting c
    if rc = successReturn then (successReturn, c.setClientState .connected)
    else if rc = connectBlock then (rc, c)
    else
      let interval :=
        if c.reconnectTimeIntervalMs < reconnectIntervalMaxMs then c.reconnectTimeIntervalMs * 2
        else reconnectIntervalMaxMs
      (rc,
        { c with
          reconnectTimeIntervalMs := interval
          reconnectNextTime := timeCountdownMs k.reconnectNext
            (if reconnectIntervalMaxMs < interval then reconnectIntervalMaxMs else interval) })

/-- `iotx_mc_keepalive`: a ping, then what the state asks for: a try to
reconnect, or for a connection just lost the time of the first one. -/
def keepalive (k : Keeping) (c : Session) : Session :=
  let (_, c) := keepaliveSub k c
  if c.clientState = .disconnectedReconnecting ∨ c.clientState = .connectBlock then
    let (rc, c) := handleReconnect k c
    if rc = successReturn then { c with reconnectTimeIntervalMs := reconnectIntervalMinMs } else c
  else if c.clientState = .disconnected then
    { c.netDisconnect.setClientState .disconnectedReconnecting with
      reconnectTimeIntervalMs := reconnectIntervalMinMs
      reconnectNextTime := timeCountdownMs k.reconnectNext reconnectIntervalMinMs }
  else c

/-- `wrapper_mqtt_yield`: the connection is kept alive first, then
`_mqtt_cycle` makes one round at least. -/
def wrapperMqttYield (k : Keeping) (first : Round) (rounds : List Round) (c : Session) : Session :=
  mqttCycle (keepalive k c) (first :: rounds)

/-! ## The calls of the application -/

/-- `wrapper_mqtt_publish`, over the connection: its result code, and the
session it leaves. -/
def Session.publish (c : Session) (p : Publishing) (topicName : List UInt8)
    (topicMsg : TopicMsg) : ℤ × Session :=
  let (rc, _, client, wire) :=
    wrapperMqttPublish { p with writes := c.writes p.writes } c.toClient topicName topicMsg
  (rc, ({ c with toClient := client } : Session).put wire)

/-- `wrapper_mqtt_subscribe`, over the connection: its result code, and the
session it leaves. -/
def Session.subscribe (c : Session) (p : Subscribing) (topicFilter : List UInt8) (qos : UInt8)
    (topicHandleFunc : Option ℕ) (pcontext : ℕ) : ℤ × Session :=
  let (rc, subscriber, wire) := wrapperMqttSubscribe { p with writes := c.writes p.writes }
    c.toSubscriber topicFilter qos topicHandleFunc pcontext
  (rc, ({ c with toSubscriber := subscriber } : Session).put wire)

/-- `wrapper_mqtt_unsubscribe`, over the connection: its result code, and the
session it leaves. -/
def Session.unsubscribe (c : Session) (p : Subscribing) (topicFilter : List UInt8) :
    ℤ × Session :=
  let (rc, subscriber, wire) := wrapperMqttUnsubscribe { p with writes := c.writes p.writes }
    c.toSubscriber topicFilter
  (rc, ({ c with toSubscriber := subscriber } : Session).put wire)

end Mqtt

end WeatherTerminal
