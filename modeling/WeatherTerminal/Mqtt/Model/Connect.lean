import WeatherTerminal.Mqtt.Model.Client
/-!
# MQTT — the packets of a connection

The CONNECT a client sends, and what it makes of the CONNACK it gets.
-/

namespace WeatherTerminal

namespace Mqtt

/-- `CONNECT`, the type of the packet that a client sends first over a
connection. -/
abbrev connectType : UInt8 := 1

/-- `MQTT_CONNACK_UNKNOWN_ERROR`: a return code in a CONNACK that the protocol
does not have. -/
abbrev connackUnknownError : ℤ := -39
/-- `MQTT_CONANCK_UNACCEPTABLE_PROTOCOL_VERSION_ERROR`: the server does not
speak this version. -/
abbrev conanckUnacceptableProtocolVersionError : ℤ := -38
/-- `MQTT_CONNACK_IDENTIFIER_REJECTED_ERROR`: the server does not take the
name of the client. -/
abbrev connackIdentifierRejectedError : ℤ := -37
/-- `MQTT_CONNACK_SERVER_UNAVAILABLE_ERROR`: the server is there, but not at
the service of the client. -/
abbrev connackServerUnavailableError : ℤ := -36
/-- `MQTT_CONNACK_BAD_USERDATA_ERROR`: the server does not know the user by
this password. -/
abbrev connackBadUserdataError : ℤ := -35
/-- `MQTT_CONNACK_NOT_AUTHORIZED_ERROR`: the user is known, but may not
connect. -/
abbrev connackNotAuthorizedError : ℤ := -34
/-- `MQTT_CONNECT_ERROR`: a connection that was refused, or not made in as
many tries as there are. -/
abbrev connectError : ℤ := -33
/-- `MQTT_CONNECT_PACKET_ERROR`: the CONNECT does not fit the buffer it is
serialized into. -/
abbrev connectPacketError : ℤ := -30
/-- `MQTT_CONNECT_ACK_PACKET_ERROR`: the packet that should be a CONNACK
cannot be read as one. -/
abbrev connectAckPacketError : ℤ := -29

/-- `MQTTPacket_willOptions`: the message a server sends for a client that is
gone, with its topic and flags. -/
structure WillOptions where
  topicName : MQTTString := {}
  message : MQTTString := {}
  retained : UInt8 := 0
  qos : UInt8 := 0
deriving DecidableEq, Repr

/-- `MQTTPacket_connectData`: what a CONNECT tells of the client; the default
is `MQTTPacket_connectData_initializer`. -/
structure ConnectData where
  mqttVersion : UInt8 := 4
  clientID : MQTTString := {}
  keepAliveInterval : UInt16 := 30
  cleansession : Bool := true
  willFlag : Bool := false
  will : WillOptions := {}
  username : MQTTString := {}
  password : MQTTString := {}
deriving DecidableEq, Repr

/-- `CONFIG_MQTT_KEEPALIVE_INTERVAL`, the seconds between two pings where none
were asked for. -/
abbrev keepaliveInterval : UInt16 := 60
/-- `CONFIG_MQTT_KEEPALIVE_INTERVAL_MIN`, the fewest seconds between two pings
that a caller may ask for. -/
abbrev keepaliveIntervalMin : UInt16 := 30
/-- `CONFIG_MQTT_KEEPALIVE_INTERVAL_MAX`, the most seconds between two pings,
which the first CONNECT names. -/
abbrev keepaliveIntervalMax : UInt16 := 1200

/-- The keepalive interval `iotx_mc_set_connect_params` takes: the one that is
asked for, brought within its bounds. -/
def setKeepAlive (requested : UInt16) : UInt16 :=
  if requested < keepaliveIntervalMin then keepaliveInterval
  else if keepaliveIntervalMax < requested then keepaliveInterval
  else requested

/-- A string that is there, if only as an empty one, so that a flag of the
CONNECT announces it. -/
def MQTTString.present (s : MQTTString) : Bool := s.cstring.isSome || !s.lenstring.isEmpty

/-- `MQTTSerialize_connectLength`: the fixed part, which the version decides,
the name, and whatever else is announced. -/
def connectLength (options : ConnectData) : ℕ :=
  (if options.mqttVersion = 3 then 12 else if options.mqttVersion = 4 then 10 else 0) +
    (options.clientID.strlen + 2) +
    (if options.willFlag then
      options.will.topicName.strlen + 2 + options.will.message.strlen + 2 else 0) +
    (if options.username.present then options.username.strlen + 2 else 0) +
    if options.password.present then options.password.strlen + 2 else 0

/-- `MQTTConnectFlags`: the byte that announces what follows the name in a
CONNECT. -/
def connectFlags (options : ConnectData) : UInt8 :=
  let clean : UInt8 := if options.cleansession then 0x02 else 0
  let will : UInt8 :=
    if options.willFlag then
      let retain : UInt8 := if options.will.retained ≠ 0 then 0x20 else 0
      (0x04 : UInt8) ||| ((options.will.qos &&& 0x03) <<< (3 : UInt8)) ||| retain
    else 0
  let username : UInt8 := if options.username.present then 0x80 else 0
  let password : UInt8 := if options.password.present then 0x40 else 0
  clean ||| will ||| username ||| password

/-- `MQTTSerialize_connect`: the protocol, the flags, the interval, and the
strings that are announced, in their order. -/
def serializeConnect {n : ℕ} (buf : Block n) (options : ConnectData) : ℤ × Block n :=
  serialize buf (header connectType 0 0 0) (connectLength options) fun o =>
    let o :=
      if options.mqttVersion = 4 then (o.writeCString (utf8 "MQTT")).writeChar 4
      else (o.writeCString (utf8 "MQIsdp")).writeChar 3
    let o := (o.writeChar (connectFlags options)).writeInt options.keepAliveInterval.toNat
    let o := o.writeMQTTString options.clientID
    let o :=
      if options.willFlag then
        (o.writeMQTTString options.will.topicName).writeMQTTString options.will.message
      else o
    let o := if options.username.present then o.writeMQTTString options.username else o
    if options.password.present then o.writeMQTTString options.password else o

/-- `MQTTDeserialize_connack`: its result code, 1 being success, and the
return code of the acknowledgement, which its caller has set to 255. One
that is too short leaves the length of the remaining length as the code. -/
def deserializeConnack (mem : List UInt8) : ℕ × UInt8 :=
  if headerType (mem.headD 0) ≠ connackType then (0, 255)
  else
    let (mylen, rc) := Varint.decode 4 1 (mem.drop 1)
    if mylen < 2 then (rc, 255)
    else (1, mem.getD (1 + rc + 1) 0)

/-- `iotx_mc_handle_recv_CONNACK`: the return code of the server as a result
code of the client. -/
def handleRecvConnack (mem : List UInt8) : ℤ :=
  let (rc, connackRc) := deserializeConnack mem
  if rc ≠ 1 then connectAckPacketError
  else if connackRc = 0 then successReturn
  else if connackRc = 1 then conanckUnacceptableProtocolVersionError
  else if connackRc = 2 then connackIdentifierRejectedError
  else if connackRc = 3 then connackServerUnavailableError
  else if connackRc = 4 then connackBadUserdataError
  else if connackRc = 5 then connackNotAuthorizedError
  else connackUnknownError

end Mqtt

end WeatherTerminal
