import WeatherTerminal.Mqtt.Model.Serialize
import WeatherTerminal.Mqtt.Model.Topic
/-!
# MQTT — the client that publishes

What the client keeps of the messages it has published with a quality of
service: `MQTTPublish` enters a message into the list, a PUBACK masks it,
and `MQTTPubInfoProc` takes out what is masked and sends again what has
waited for too long. What is granted, what the network takes and what the
clock shows are inputs.

The lists are those of `PLATFORM_HAS_DYNMEM`. A section under a lock is one
function.
-/

namespace WeatherTerminal

namespace Mqtt

/-- `IOTX_MC_REPUB_NUM_MAX`: how many messages may wait for their
acknowledgement at one time. -/
abbrev repubNumMax : ℕ := 20
/-- `IOTX_MC_PACKET_ID_MAX`: the identifier behind which they start again with
1. -/
abbrev packetIdMax : ℕ := 65535

/-- `SUCCESS_RETURN`: what the functions of the client return where nothing
has failed. -/
abbrev successReturn : ℤ := 0
/-- `MQTT_STATE_ERROR`: the call asks for a client that is connected, and this
one is not. -/
abbrev stateError : ℤ := -27
/-- `MQTT_PUBLISH_ACK_PACKET_ERROR`: an acknowledgement that cannot be read,
or cannot be serialized. -/
abbrev publishAckPacketError : ℤ := -19
/-- `MQTT_PUBLISH_QOS_ERROR`: a message of a quality of service that the
client does not handle. -/
abbrev publishQosError : ℤ := -20
/-- `MQTT_TOPIC_FORMAT_ERROR`: the topic, or the filter, has not passed
`iotx_mc_check_topic`. -/
abbrev topicFormatError : ℤ := -41
/-- `MQTT_PUSH_TO_LIST_ERROR`: there is no room for the message among those
that wait, or no memory. -/
abbrev pushToListError : ℤ := -42

/-- `iotx_mc_state_t`: what the client knows of its connection, from before
the first one on. -/
inductive ClientState
  | invalid
  | initialized
  | connected
  | disconnected
  | disconnectedReconnecting
  | connectBlock
deriving DecidableEq, Repr

/-- `iotx_mc_node_state_t`: whether a message still waits, or has been
acknowledged and is to be taken out. -/
inductive NodeState
  | normanl
  | invalid
deriving DecidableEq, Repr

/-- `iotx_mc_pub_info_t`: a message that waits for its acknowledgement, with
its packet and the time it was last sent. -/
structure PubInfo where
  pubStartTime : UInt32
  nodeState : NodeState
  msgId : UInt16
  buf : List UInt8
deriving DecidableEq, Repr

/-- What `iotx_mc_client_t` keeps for its publishes: its state, the last
identifier, the timeout, and the messages that wait. -/
structure Client where
  clientState : ClientState
  packetId : ℕ
  requestTimeoutMs : UInt32
  listPubWaitAck : List PubInfo
deriving DecidableEq, Repr

/-- `iotx_mqtt_topic_info_t` of a publish: the flags, the identifier that the
client enters, and the payload. -/
structure TopicMsg where
  qos : UInt8
  retain : UInt8
  packetId : UInt16
  payload : List UInt8
deriving DecidableEq, Repr

/-- `utils_time_spend`: the milliseconds since `start`, on a clock of 32 bits
that wraps. -/
def timeSpend (start now : UInt32) : UInt32 := now - start

/-- `iotx_mc_get_next_packetid`: the identifier behind the last one, 1 behind
the highest, which the client keeps. -/
def getNextPacketid (c : Client) : ℕ × Client :=
  let id := if c.packetId = packetIdMax then 1 else c.packetId + 1
  (id, { c with packetId := id })

/-! ## The list -/

/-- `iotx_mc_push_pubInfo_to`: a message is entered behind those that wait,
where there are fewer than 20 and the node is granted. -/
def pushPubInfoTo (c : Client) (bufSend : List UInt8) (msgId : UInt16) (granted : Bool)
    (now : UInt32) : Option Client :=
  if repubNumMax ≤ c.listPubWaitAck.length then none
  else if granted = false then none
  else some { c with listPubWaitAck := c.listPubWaitAck ++
    [{ pubStartTime := now, nodeState := .normanl, msgId := msgId, buf := bufSend }] }

/-- `iotx_mc_mask_pubInfo_from`: every message with the identifier is marked
as acknowledged, and stays in the list until the next round. -/
def maskPubInfoFrom (c : Client) (msgId : UInt16) : Client :=
  { c with listPubWaitAck := c.listPubWaitAck.map fun node =>
      if node.msgId = msgId then { node with nodeState := .invalid } else node }

/-- What `MQTTPubInfoProc` meets at a node: the state of the client, which
other threads may change, the time, what the network takes of the packet
and the time when that is done. -/
structure Visit where
  state : ClientState
  now : UInt32
  writes : List Write
  restart : UInt32

/-- The loop of `MQTTPubInfoProc`: the nodes that are left, those that were
sent again with what went out of each, and whether the network failed,
which ends the loop. -/
def pubInfoProcLoop (requestTimeoutMs : UInt32) :
    List PubInfo → (ℕ → Visit) → List PubInfo × List (PubInfo × List UInt8) × Bool
  | [], _ => ([], [], false)
  | node :: nodes, visit =>
      let next := fun k => visit (k + 1)
      let v := visit 0
      if node.nodeState = .invalid then pubInfoProcLoop requestTimeoutMs nodes next
      else if v.state ≠ .connected ∨ timeSpend node.pubStartTime v.now ≤ requestTimeoutMs * 2 then
        let (left, again, failed) := pubInfoProcLoop requestTimeoutMs nodes next
        (node :: left, again, failed)
      else
        let (wire, sent) := sendPacket node.buf v.writes
        let node := { node with pubStartTime := v.restart }
        if sent = false then (node :: nodes, [(node, wire)], true)
        else
          let (left, again, failed) := pubInfoProcLoop requestTimeoutMs nodes next
          (node :: left, (node, wire) :: again, failed)

/-- `MQTTPubInfoProc`: the client, and what was sent again, each node with the
bytes that went out of its packet. -/
def pubInfoProc (c : Client) (visit : ℕ → Visit) : Client × List (PubInfo × List UInt8) :=
  let (left, again, failed) := pubInfoProcLoop c.requestTimeoutMs c.listPubWaitAck visit
  ({ c with listPubWaitAck := left,
            clientState := if failed then .disconnected else c.clientState }, again)

/-! ## Publishing -/

/-- What a call of `MQTTPublish` meets: whether its buffer and its node are
granted, the time, and what the network takes. -/
structure Publishing where
  bufGranted : Bool
  nodeGranted : Bool
  now : UInt32
  writes : List Write
deriving DecidableEq, Repr

/-- `MQTTPublish`: its result code, the client, and what goes out. The message
is entered before it is sent, and taken out again where sending fails. -/
def mqttPublish (p : Publishing) (c : Client) (topicName : List UInt8) (topicMsg : TopicMsg) :
    ℤ × Client × List UInt8 :=
  if p.bufGranted = false then (failReturn, c, [])
  else
    let (len, bufSend) := serializePublish
      (allocSendBuffer (topicName.length + topicMsg.payload.length)) 0 topicMsg.qos
      topicMsg.retain topicMsg.packetId.toNat { cstring := some topicName } topicMsg.payload
    if len ≤ 0 then (publishPacketError, c, [])
    else
      let packet := bufSend.bytes.take len.toNat
      let pushed :=
        if topicMsg.qos > 0 then pushPubInfoTo c packet topicMsg.packetId p.nodeGranted p.now
        else some c
      match pushed with
      | none => (pushToListError, c, [])
      | some c' =>
          match sendPacket packet p.writes with
          | (wire, true) => (successReturn, c', wire)
          -- the node was entered under the same lock: it is the last one
          | (wire, false) =>
              (networkError,
                if topicMsg.qos > 0 then
                  { c' with listPubWaitAck := c'.listPubWaitAck.dropLast }
                else c', wire)

/-- `wrapper_mqtt_publish`, with the message as it leaves it: the identifier
is drawn behind the checks of topic and state, before that of the quality of
service. -/
def wrapperMqttPublish (p : Publishing) (c : Client) (topicName : List UInt8)
    (topicMsg : TopicMsg) : ℤ × TopicMsg × Client × List UInt8 :=
  if checkTopic .name topicName = false then (topicFormatError, topicMsg, c, [])
  else if c.clientState ≠ .connected then (stateError, topicMsg, c, [])
  else
    let (msgId, c) :=
      if topicMsg.qos = 1 ∨ topicMsg.qos = 2 then getNextPacketid c else (0, c)
    let topicMsg :=
      if topicMsg.qos = 1 ∨ topicMsg.qos = 2 then
        { topicMsg with packetId := UInt16.ofNat msgId }
      else topicMsg
    if topicMsg.qos = 2 then (publishQosError, topicMsg, c, [])
    else
      let (rc, c, wire) := mqttPublish p c topicName topicMsg
      if rc ≠ successReturn then
        (rc, topicMsg, if rc = networkError then { c with clientState := .disconnected } else c,
          wire)
      else (msgId, topicMsg, c, wire)

/-! ## An acknowledgement -/

/-- The identifier `iotx_mc_handle_recv_PUBACK` goes by: that of the
acknowledgement, or what its variable happened to hold where an
acknowledgement without one passes. -/
def pubackId (mem : List UInt8) (mypacketid : UInt16) : Option UInt16 :=
  let (rc, ack) := deserializeAck mem
  if rc ≠ 1 then none else some (ack.packetid.elim mypacketid UInt16.ofNat)

/-- `iotx_mc_handle_recv_PUBACK`: what has the identifier of the
acknowledgement is marked, if it could be read. -/
def handleRecvPuback (c : Client) (mem : List UInt8) (mypacketid : UInt16) : ℤ × Client :=
  match pubackId mem mypacketid with
  | none => (publishAckPacketError, c)
  | some id => (successReturn, maskPubInfoFrom c id)

end Mqtt

end WeatherTerminal
