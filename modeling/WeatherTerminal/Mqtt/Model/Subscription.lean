import WeatherTerminal.Mqtt.Model.Client
/-!
# MQTT — the client that subscribes

The handlers a client keeps: `MQTTSubscribe` enters one when its packet is
out, `MQTTUnsubscribe` takes out those its filter is matched by, and
`iotx_mc_deliver_message` calls them. The filters are C strings, without
their NUL. A handler and what it is called with are pointers, which are
compared only.
-/

namespace WeatherTerminal

namespace Mqtt

/-- `MQTT_SUBSCRIBE_PACKET_ERROR`: the SUBSCRIBE does not fit the buffer it is
serialized into. -/
abbrev subscribePacketError : ℤ := -26
/-- `MQTT_UNSUBSCRIBE_PACKET_ERROR`: the UNSUBSCRIBE does not fit the buffer
it is serialized into. -/
abbrev unsubscribePacketError : ℤ := -22
/-- `NULL_VALUE_ERROR`: a null pointer, or an empty filter, where a
subscription needs one. -/
abbrev nullValueError : ℤ := -2

/-- `iotx_mqtt_event_handle_t`, its `h_fp` not null: a function to call, and
the pointer to call it with. -/
structure EventHandle where
  hFp : ℕ
  pcontext : ℕ
deriving DecidableEq, Repr

/-- `iotx_mc_topic_handle_t`: the handler of a subscription, under the filter
it was subscribed with. -/
structure TopicHandle where
  topicFilter : List UInt8
  handle : EventHandle
deriving DecidableEq, Repr

/-- `iotx_mc_client_t`, with what it keeps for its subscriptions: their
handlers, in order, and the one for all other messages. -/
structure Subscriber extends Client where
  listSubHandle : List TopicHandle
  handleEvent : Option EventHandle
deriving DecidableEq, Repr

/-- `iotx_mc_check_handle_is_identical`, true being 0: filter, function and
pointer are all the same. -/
def checkHandleIsIdentical (messageHandlers1 messageHandler2 : TopicHandle) : Bool :=
  messageHandlers1.topicFilter.length == messageHandler2.topicFilter.length &&
    messageHandlers1.topicFilter == messageHandler2.topicFilter &&
    messageHandlers1.handle.hFp == messageHandler2.handle.hFp &&
    messageHandlers1.handle.pcontext == messageHandler2.handle.pcontext

/-- Whether a handler is meant by a topic: by `MQTTPacket_equals` or by
`iotx_mc_is_topic_matched`. -/
def TopicHandle.meant (node : TopicHandle) (topic : List UInt8) : Bool :=
  node.topicFilter == topic || isTopicMatched node.topicFilter topic

/-- `iotx_mc_deliver_message`: every handler that is meant is called, in their
order, and that of the client where none is. -/
def deliverMessage (c : Subscriber) (topicName : List UInt8) : List EventHandle :=
  let matched := c.listSubHandle.filter (·.meant topicName)
  if matched = [] then c.handleEvent.toList else matched.map (·.handle)

/-! ## Subscribing -/

/-- What a call of `MQTTSubscribe` or of `MQTTUnsubscribe` meets: three
allocations, and what the network takes. -/
structure Subscribing where
  handlerGranted : Bool
  filterGranted : Bool
  bufGranted : Bool
  writes : List Write
deriving DecidableEq, Repr

/-- `MQTTSubscribe`: its result code, the client, and what goes out. The
handler is entered once the packet is out, if it is a new one. -/
def mqttSubscribe (p : Subscribing) (c : Subscriber) (topicFilter : List UInt8) (qos : UInt8)
    (msgId : ℕ) (messageHandler : EventHandle) : ℤ × Subscriber × List UInt8 :=
  if p.handlerGranted = false then (failReturn, c, [])
  else if p.filterGranted = false then (failReturn, c, [])
  else
    let handler : TopicHandle := { topicFilter := topicFilter, handle := messageHandler }
    if p.bufGranted = false then (failReturn, c, [])
    else
      let (len, bufSend) := serializeSubscribe (allocSendBuffer topicFilter.length) 0
        (UInt16.ofNat msgId).toNat [({ cstring := some topicFilter }, qos)]
      if len ≤ 0 then (subscribePacketError, c, [])
      else
        match sendPacket (bufSend.bytes.take len.toNat) p.writes with
        | (wire, false) => (networkError, c, wire)
        | (wire, true) =>
            let dup := c.listSubHandle.any fun node => checkHandleIsIdentical node handler
            (successReturn,
              if dup then c else { c with listSubHandle := c.listSubHandle ++ [handler] }, wire)

/-- `wrapper_mqtt_subscribe`, `none` being a null pointer: the identifier is
drawn before state and filter are looked at. -/
def wrapperMqttSubscribe (p : Subscribing) (c : Subscriber) (topicFilter : List UInt8)
    (qos : UInt8) (topicHandleFunc : Option ℕ) (pcontext : ℕ) : ℤ × Subscriber × List UInt8 :=
  match topicHandleFunc with
  | none => (nullValueError, c, [])
  | some hFp =>
      if topicFilter = [] then (nullValueError, c, [])
      else
        -- the identifier is spent before the checks
        let (msgId, client) := getNextPacketid c.toClient
        let c := { c with toClient := client }
        if c.clientState ≠ .connected then (stateError, c, [])
        else if checkTopic .filter topicFilter = false then (topicFormatError, c, [])
        else
          let (rc, c, wire) := mqttSubscribe p c topicFilter qos msgId ⟨hFp, pcontext⟩
          if rc ≠ successReturn then
            (rc, if rc = networkError then { c with clientState := .disconnected } else c, wire)
          else (msgId, c, wire)

/-! ## Unsubscribing -/

/-- `MQTTUnsubscribe`: its result code, the client, and what goes out. Once
the packet is out the handlers its filter is meant by are taken out. -/
def mqttUnsubscribe (p : Subscribing) (c : Subscriber) (topicFilter : List UInt8) (msgId : ℕ) :
    ℤ × Subscriber × List UInt8 :=
  if p.handlerGranted = false then (failReturn, c, [])
  else if p.filterGranted = false then (failReturn, c, [])
  else if p.bufGranted = false then (failReturn, c, [])
  else
    let (len, bufSend) := serializeUnsubscribe (allocSendBuffer topicFilter.length) 0
      (UInt16.ofNat msgId).toNat [{ cstring := some topicFilter }]
    if len ≤ 0 then (unsubscribePacketError, c, [])
    else
      match sendPacket (bufSend.bytes.take len.toNat) p.writes with
      | (wire, false) => (networkError, c, wire)
      | (wire, true) =>
          -- the length of `cur_topic` counts its NUL
          let curTopic := topicFilter ++ [0]
          (successReturn,
            { c with listSubHandle := c.listSubHandle.filter fun node => !node.meant curTopic },
            wire)

/-- `wrapper_mqtt_unsubscribe`: the identifier is drawn first, then the filter
and the state are looked at, in this order. -/
def wrapperMqttUnsubscribe (p : Subscribing) (c : Subscriber) (topicFilter : List UInt8) :
    ℤ × Subscriber × List UInt8 :=
  let (msgId, client) := getNextPacketid c.toClient
  let c := { c with toClient := client }
  if checkTopic .filter topicFilter = false then (topicFormatError, c, [])
  else if c.clientState ≠ .connected then (stateError, c, [])
  else
    let (rc, c, wire) := mqttUnsubscribe p c topicFilter msgId
    if rc ≠ successReturn then
      (rc, if rc = networkError then { c with clientState := .disconnected } else c, wire)
    else (msgId, c, wire)

end Mqtt

end WeatherTerminal
