import WeatherTerminal.Mqtt.Pending
import WeatherTerminal.Mqtt.Topic
/-!
# MQTT — calls of the client

A call of `wrapper_mqtt_publish` is a few steps of the client
(`wrapperMqttPublish_run`). Two messages that it accepts under one
identifier are 65535 identifiers apart (`identifiers_apart`), and what it
sends is read back by a client of the same code (`mqttPublish_read`).
-/

namespace WeatherTerminal

namespace Mqtt

/-! ## A call, step by step -/

/-- The message as it is published: with the next identifier, where its
quality of service asks for one. -/
def TopicMsg.numbered (topicMsg : TopicMsg) (c : Client) : TopicMsg :=
  if topicMsg.qos = 1 ∨ topicMsg.qos = 2 then
    { topicMsg with packetId := UInt16.ofNat (getNextPacketid c).1 }
  else topicMsg

/-- The client that publishes it: the identifier is spent, where the quality
of service asks for one. -/
def Client.numbering (c : Client) (topicMsg : TopicMsg) : Client :=
  if topicMsg.qos = 1 ∨ topicMsg.qos = 2 then (getNextPacketid c).2 else c

/-- The client that a failed publish leaves: disconnected where the network
has failed, else as it was. -/
def Client.failed (c : Client) (rc : ℤ) : Client :=
  if rc = networkError then { c with clientState := .disconnected } else c

/-- The steps of a call of `wrapper_mqtt_publish`, which other threads may
come between: an identifier, the publish, and what a failure does. -/
def callOps (p : Publishing) (c : Client) (topicName : List UInt8) (topicMsg : TopicMsg) :
    List Op :=
  if checkTopic .name topicName = false ∨ c.clientState ≠ .connected then []
  else
    (if topicMsg.qos = 1 ∨ topicMsg.qos = 2 then [.packetid] else []) ++
      if topicMsg.qos = 2 then []
      else
        .publish p topicName (topicMsg.numbered c) ::
          if (mqttPublish p (c.numbering topicMsg) topicName (topicMsg.numbered c)).1 =
            networkError then [.setState .disconnected] else []

variable {p : Publishing} {c : Client} {topicName : List UInt8} {topicMsg : TopicMsg}

/-- A call that is let through, and not of the quality of service 2. -/
theorem wrapperMqttPublish_eq (htopic : checkTopic .name topicName = true)
    (hstate : c.clientState = .connected) (hqos : topicMsg.qos ≠ 2) :
    wrapperMqttPublish p c topicName topicMsg =
      let r := mqttPublish p (c.numbering topicMsg) topicName (topicMsg.numbered c)
      if r.1 ≠ successReturn then (r.1, topicMsg.numbered c, r.2.1.failed r.1, r.2.2)
      else (if topicMsg.qos = 1 then ((getNextPacketid c).1 : ℤ) else 0, topicMsg.numbered c,
        r.2.1, r.2.2) := by
  have hor : topicMsg.qos = 1 ∨ topicMsg.qos = 2 ↔ topicMsg.qos = 1 := or_iff_left hqos
  rw [wrapperMqttPublish, if_neg (by rw [htopic]; decide), if_neg (not_not.mpr hstate),
    Client.numbering, TopicMsg.numbered]
  simp only [hor]
  by_cases h1 : topicMsg.qos = 1
  · simp only [h1]
    rfl
  · simp only [if_neg h1, if_neg hqos]
    rfl

/-- The other calls only take an identifier, or do not get that far. -/
theorem wrapperMqttPublish_refused (h : ¬(checkTopic .name topicName = true ∧
    c.clientState = .connected ∧ topicMsg.qos ≠ 2)) :
    (wrapperMqttPublish p c topicName topicMsg).1 < 0 ∧
      (wrapperMqttPublish p c topicName topicMsg).2.2.1 =
        (if checkTopic .name topicName = true ∧ c.clientState = .connected then
          (getNextPacketid c).2 else c) ∧
      (wrapperMqttPublish p c topicName topicMsg).2.2.2 = [] := by
  rw [wrapperMqttPublish]
  by_cases htopic : checkTopic .name topicName = true
  · rw [if_neg (by rw [htopic]; decide)]
    by_cases hstate : c.clientState = .connected
    · have hqos : topicMsg.qos = 2 := by
        by_contra hne
        exact h ⟨htopic, hstate, hne⟩
      rw [if_neg (not_not.mpr hstate)]
      simp only [hqos, or_true, if_true]
      exact ⟨show publishQosError < 0 by decide, (if_pos ⟨htopic, hstate⟩).symm, trivial⟩
    · rw [if_pos hstate, if_neg (fun h => hstate h.2)]
      exact ⟨show stateError < 0 by decide, rfl, rfl⟩
  · rw [if_pos (Bool.eq_false_of_not_eq_true htopic), if_neg (fun h => htopic h.1)]
    exact ⟨show topicFormatError < 0 by decide, rfl, rfl⟩

/-- A run of two parts ends where the second part ends that starts where the
first one does. -/
theorem run_append (c : Client) (ops more : List Op) :
    (run c (ops ++ more)).1 = (run (run c ops).1 more).1 := by
  induction ops generalizing c with
  | nil => rfl
  | cons op ops ih => exact ih _

/-- The identifier is taken by a step of its own, if at all. -/
theorem run_numbering (c : Client) (topicMsg : TopicMsg) :
    (run c (if topicMsg.qos = 1 ∨ topicMsg.qos = 2 then [.packetid] else [])).1 =
      c.numbering topicMsg := by
  rw [Client.numbering]
  split <;> rfl

/-- **A call is a few steps**: the client behind a call is the one behind a
run of them, so that calls are runs. -/
theorem wrapperMqttPublish_run (p : Publishing) (c : Client) (topicName : List UInt8)
    (topicMsg : TopicMsg) :
    (run c (callOps p c topicName topicMsg)).1 =
      (wrapperMqttPublish p c topicName topicMsg).2.2.1 := by
  by_cases h : checkTopic .name topicName = true ∧ c.clientState = .connected ∧ topicMsg.qos ≠ 2
  · obtain ⟨htopic, hstate, hqos⟩ := h
    rw [wrapperMqttPublish_eq htopic hstate hqos, callOps,
      if_neg (by simp [htopic, hstate]), if_neg hqos]
    simp only
    rw [run_append, run_numbering]
    rcases mqttPublish_spec p (c.numbering topicMsg) topicName (topicMsg.numbered c) with
      ⟨hrc, -, -, -⟩ | ⟨hrc, -, -, -⟩
    · rw [if_neg (not_not.mpr hrc), if_neg (by rw [hrc]; decide)]
      rfl
    · rw [if_pos (ne_of_lt hrc), Client.failed]
      split <;> rfl
  · rw [(wrapperMqttPublish_refused h).2.1, callOps]
    by_cases hthrough : checkTopic .name topicName = true ∧ c.clientState = .connected
    · have hqos : topicMsg.qos = 2 := by
        by_contra hne
        exact h ⟨hthrough.1, hthrough.2, hne⟩
      rw [if_pos hthrough, if_neg (by simp [hthrough]), if_pos hqos, if_pos (Or.inr hqos)]
      rfl
    · rw [if_neg hthrough, if_pos]
      · rfl
      · by_contra hnot
        rw [not_or, not_not, Bool.not_eq_false] at hnot
        exact hthrough hnot

/-! ## Identifiers -/

/-- What the threads do: a call that publishes, or any other step. -/
inductive Call
  | publish (p : Publishing) (topicName : List UInt8) (topicMsg : TopicMsg)
  | op (o : Op)

/-- The client behind a call, and how many identifiers the call takes: one, or
none. -/
def call (c : Client) : Call → Client × ℕ
  | .publish p topicName topicMsg =>
      ((wrapperMqttPublish p c topicName topicMsg).2.2.1,
        if checkTopic .name topicName = true ∧ c.clientState = .connected ∧
          (topicMsg.qos = 1 ∨ topicMsg.qos = 2) then 1 else 0)
  | .op .packetid => ((step c .packetid).1, 1)
  | .op o => ((step c o).1, 0)

/-- The client behind a run of calls, and how many identifiers it takes. -/
def calls (c : Client) : List Call → Client × ℕ
  | [] => (c, 0)
  | a :: cs =>
      let (c', k) := call c a
      let (c'', n) := calls c' cs
      (c'', k + n)

/-- The identifier behind another: the next number, and 1 behind the highest.
-/
def nextId (id : ℕ) : ℕ := if id = packetIdMax then 1 else id + 1

/-- The `k`th identifier behind another, counted round from 1 to the highest.
-/
theorem nextId_iterate {id : ℕ} (hpos : 1 ≤ id) (hle : id ≤ packetIdMax) (k : ℕ) :
    nextId^[k] id = (id - 1 + k) % packetIdMax + 1 := by
  induction k with
  | zero =>
      rw [Function.iterate_zero, id_eq, Nat.add_zero, Nat.mod_eq_of_lt (by omega)]
      omega
  | succ k ih =>
      rw [Function.iterate_succ_apply', ih, nextId, ← Nat.add_assoc]
      simp only [packetIdMax]
      split <;> omega

theorem packetId_mqttPublish : (mqttPublish p c topicName topicMsg).2.1.packetId = c.packetId := by
  rcases mqttPublish_spec p c topicName topicMsg with ⟨-, h, -, -⟩ | ⟨-, h, -, -⟩
  · rw [h, Client.accept]
    split <;> rfl
  · rw [h]

/-- A call of `wrapper_mqtt_publish` moves the identifier on by as many as it
takes. -/
theorem packetId_wrapperMqttPublish (p : Publishing) (c : Client) (topicName : List UInt8)
    (topicMsg : TopicMsg) :
    (wrapperMqttPublish p c topicName topicMsg).2.2.1.packetId =
      nextId^[(call c (.publish p topicName topicMsg)).2] c.packetId := by
  rw [call]
  by_cases h : checkTopic .name topicName = true ∧ c.clientState = .connected ∧ topicMsg.qos ≠ 2
  · obtain ⟨htopic, hstate, hqos⟩ := h
    have hnumbered : (c.numbering topicMsg).packetId =
        nextId^[if checkTopic .name topicName = true ∧ c.clientState = .connected ∧
          (topicMsg.qos = 1 ∨ topicMsg.qos = 2) then 1 else 0] c.packetId := by
      rw [Client.numbering]
      by_cases hor : topicMsg.qos = 1 ∨ topicMsg.qos = 2
      · rw [if_pos hor, if_pos ⟨htopic, hstate, hor⟩]
        rfl
      · rw [if_neg hor, if_neg fun h => hor h.2.2]
        rfl
    rw [wrapperMqttPublish_eq htopic hstate hqos, ← hnumbered]
    simp only
    split
    · rw [Client.failed]
      split <;> exact packetId_mqttPublish
    · exact packetId_mqttPublish
  · rw [(wrapperMqttPublish_refused h).2.1]
    by_cases hthrough : checkTopic .name topicName = true ∧ c.clientState = .connected
    · have hqos : topicMsg.qos = 2 := by
        by_contra hne
        exact h ⟨hthrough.1, hthrough.2, hne⟩
      rw [if_pos hthrough, if_pos ⟨hthrough.1, hthrough.2, Or.inr hqos⟩]
      rfl
    · rw [if_neg hthrough, if_neg fun h => hthrough ⟨h.1, h.2.1⟩]
      rfl

/-- Every step moves the identifier on by as many as it takes. -/
theorem packetId_call (c : Client) (a : Call) :
    (call c a).1.packetId = nextId^[(call c a).2] c.packetId := by
  rcases a with ⟨p, topicName, topicMsg⟩ | o
  · exact packetId_wrapperMqttPublish p c topicName topicMsg
  · cases o with
    | packetid => rfl
    | publish p topicName topicMsg => exact packetId_mqttPublish
    | puback mem mypacketid =>
        show (handleRecvPuback c mem mypacketid).2.packetId = c.packetId
        rw [handleRecvPuback]
        cases pubackId mem mypacketid <;> rfl
    | pubInfoProc visit => rfl
    | setState s => rfl

/-- So does a row of them, by as many as they take together. -/
theorem packetId_calls (c : Client) (cs : List Call) :
    (calls c cs).1.packetId = nextId^[(calls c cs).2] c.packetId := by
  induction cs generalizing c with
  | nil => rfl
  | cons a cs ih =>
      rw [calls]
      simp only
      rw [ih, packetId_call, ← Function.iterate_add_apply, Nat.add_comm]

/-- An identifier that a call returns is the next one, and then the last one
of the client. -/
theorem wrapperMqttPublish_pos (h : 0 < (wrapperMqttPublish p c topicName topicMsg).1) :
    (wrapperMqttPublish p c topicName topicMsg).1 = nextId c.packetId ∧
      (wrapperMqttPublish p c topicName topicMsg).2.2.1.packetId = nextId c.packetId := by
  by_cases hthrough : checkTopic .name topicName = true ∧ c.clientState = .connected ∧
      topicMsg.qos ≠ 2
  · obtain ⟨htopic, hstate, hqos⟩ := hthrough
    rw [wrapperMqttPublish_eq htopic hstate hqos] at h ⊢
    simp only at h ⊢
    rcases mqttPublish_spec p (c.numbering topicMsg) topicName (topicMsg.numbered c) with
      ⟨hrc, -, -, -⟩ | ⟨hrc, -, -, -⟩
    · rw [if_neg (not_not.mpr hrc)] at h ⊢
      by_cases hone : topicMsg.qos = 1
      · rw [packetId_mqttPublish, Client.numbering, if_pos (Or.inl hone), if_pos hone]
        exact ⟨rfl, rfl⟩
      · rw [if_neg hone] at h
        exact absurd h (lt_irrefl 0)
    · rw [if_pos (ne_of_lt hrc)] at h
      simp only at h
      omega
  · have := (wrapperMqttPublish_refused (p := p) hthrough).1
    omega

/-- The identifier of a client stays within its bounds over every run. -/
theorem packetId_le {c : Client} (h : c.packetId ≤ packetIdMax) (cs : List Call) :
    (calls c cs).1.packetId ≤ packetIdMax := by
  rw [packetId_calls]
  refine Function.Iterate.rec (fun id => id ≤ packetIdMax) h (fun id hid => ?_) _
  rw [nextId]
  split
  · decide
  · omega

/-! ### A message under the identifier of another -/

/-- A network that takes as many bytes as the packet has takes all of it. -/
theorem sendPacket_whole {left : List UInt8} {k : ℕ} (h : left.length ≤ k) :
    (sendPacket left [.wrote k]).2 = true := by
  rw [sendPacket]
  split
  · rfl
  · rw [List.drop_of_length_le h]
    rfl

/-- A publish whose allocations are granted, over a network that takes every
packet. -/
def takesAll : Publishing := ⟨true, true, 0, [.wrote 1024]⟩

/-- No send buffer is larger than a packet may be. -/
theorem sendSize_le (len : ℕ) : sendSize len ≤ 1024 := by
  unfold sendSize
  simp only [messageMaxlen, sendMargin]
  split_ifs <;> omega

/-- A packet that a send buffer takes has 1024 bytes at most. -/
theorem length_packetBytes_le {head : UInt8} {bs : List UInt8} {len k : ℕ} (hk : k ≤ 3)
    (hlen : bs.length = 2 + len + k) (hfits : len + k ≤ 1019) :
    (packetBytes head bs).length ≤ 1024 := by
  have hencode := length_encode_le_packetLen (show bs.length < 128 ^ 4 by omega)
  have hsize := (packetLen_le_sendSize len hk).mpr hfits
  have hmax := sendSize_le len
  rw [length_packetBytes]
  rw [hlen] at hencode ⊢
  omega

/-- The packet of a publish whose topic, payload and identifier have 1019
bytes at most fits both the send buffer and the receive buffer of 1024. -/
theorem length_publishPacket_le {dup qos retained : UInt8} {packetid : ℕ}
    {topic payload : List UInt8} (h : topic.length + payload.length + idBytes qos ≤ 1019) :
    (publishPacket dup qos retained packetid topic payload).length ≤ 1024 := by
  refine length_packetBytes_le (show idBytes qos ≤ 3 by unfold idBytes; split <;> omega) ?_ h
  rw [length_publishBody, length_publishRest, ← Nat.add_assoc, ← Nat.add_assoc]

/-- A message that is let through and taken by the network gets the next
identifier, and waits for its acknowledgement. -/
theorem wrapperMqttPublish_takesAll (c : Client) (topicName : List UInt8) (topicMsg : TopicMsg)
    (htopic : checkTopic .name topicName = true)
    (hstate : c.clientState = .connected) (hqos : topicMsg.qos = 1)
    (hfits : topicName.length + topicMsg.payload.length ≤ 1017)
    (hroom : c.listPubWaitAck.length < repubNumMax) :
    (wrapperMqttPublish takesAll c topicName topicMsg).1 = nextId c.packetId ∧
      (wrapperMqttPublish takesAll c topicName topicMsg).2.2.1 =
        { c with packetId := nextId c.packetId, listPubWaitAck := c.listPubWaitAck ++
          [(topicMsg.numbered c).node topicName 0] } := by
  have hqos' : (topicMsg.numbered c).qos = 1 := by
    rw [TopicMsg.numbered, if_pos (Or.inl hqos)]
    exact hqos
  have hpayload : (topicMsg.numbered c).payload = topicMsg.payload := by
    rw [TopicMsg.numbered, if_pos (Or.inl hqos)]
  have hid : idBytes (topicMsg.numbered c).qos = 2 := by rw [hqos']; rfl
  have hlen : topicName.length + (topicMsg.numbered c).payload.length +
      idBytes (topicMsg.numbered c).qos ≤ 1019 := by
    rw [hpayload, hid]
    omega
  have hok := (mqttPublish_success_iff takesAll (c.numbering topicMsg) topicName
    (topicMsg.numbered c)).mpr ⟨rfl, hlen, fun _ => ⟨?_, rfl⟩,
      sendPacket_whole (length_publishPacket_le hlen)⟩
  · rw [wrapperMqttPublish_eq htopic hstate (by rw [hqos]; decide)]
    simp only
    rw [if_neg (not_not.mpr hok), if_pos hqos]
    refine ⟨rfl, ?_⟩
    rcases mqttPublish_spec takesAll (c.numbering topicMsg) topicName (topicMsg.numbered c) with
      ⟨-, hclient, -, -⟩ | ⟨hrc, -, -, -⟩
    · rw [hclient, Client.accept, hqos', if_pos (by decide), Client.numbering,
        if_pos (Or.inl hqos)]
      rfl
    · exact absurd hrc (by rw [hok]; decide)
  · rw [Client.numbering, if_pos (Or.inl hqos)]
    exact hroom

/-- **Messages under one identifier are 65535 identifiers apart.** From a
client that has taken none, and whatever is called before the first message
and between the two: where both are accepted under one identifier, 65534
others were taken between them. -/
theorem identifiers_apart (c₀ : Client) (cs₀ cs : List Call) (p p' : Publishing)
    (topicName topicName' : List UInt8) (topicMsg topicMsg' : TopicMsg) (hnew : c₀.packetId = 0)
    (hpos : 0 < (wrapperMqttPublish p (calls c₀ cs₀).1 topicName topicMsg).1)
    (hsame : (wrapperMqttPublish p'
        (calls (wrapperMqttPublish p (calls c₀ cs₀).1 topicName topicMsg).2.2.1 cs).1
        topicName' topicMsg').1 =
      (wrapperMqttPublish p (calls c₀ cs₀).1 topicName topicMsg).1) :
    packetIdMax ≤
      (calls (wrapperMqttPublish p (calls c₀ cs₀).1 topicName topicMsg).2.2.1 cs).2 + 1 := by
  have hle : (calls c₀ cs₀).1.packetId ≤ packetIdMax :=
    packetId_le (by rw [hnew]; exact Nat.zero_le _) cs₀
  set c := (calls c₀ cs₀).1 with hc
  obtain ⟨hrc, hid⟩ := wrapperMqttPublish_pos hpos
  set d := (wrapperMqttPublish p c topicName topicMsg).2.2.1 with hd
  have hpos' := hpos
  rw [← hsame] at hpos'
  obtain ⟨hrc', -⟩ := wrapperMqttPublish_pos hpos'
  rw [hrc', hrc, packetId_calls, hid, ← Function.iterate_succ_apply' nextId, Nat.cast_inj] at hsame
  have hbounds : 1 ≤ nextId c.packetId ∧ nextId c.packetId ≤ packetIdMax := by
    rw [nextId]
    split
    · decide
    · omega
  rw [nextId_iterate hbounds.1 hbounds.2] at hsame
  by_contra hlt
  simp only [packetIdMax] at hlt hsame hbounds
  omega

theorem calls_packetid (c : Client) (n : ℕ) :
    calls c (List.replicate n (.op .packetid)) =
      ({ c with packetId := nextId^[n] c.packetId }, n) := by
  induction n generalizing c with
  | zero => rfl
  | succ n ih =>
      rw [List.replicate_succ, calls]
      simp only [call]
      rw [ih, Nat.add_comm 1 n]
      rfl

/-- A client that has just connected, has taken no identifier and waits for
nothing. -/
def newClient : Client := ⟨.connected, 0, 2000, []⟩
/-- A message of five bytes that is to be acknowledged. -/
def helloMsg : TopicMsg := ⟨1, 0, 0, utf8 "hello"⟩

/-- The identifiers come round: behind 65534 others a message gets that of the
first one. -/
theorem identifiers_apart_round :
    packetIdMax ≤ (calls (wrapperMqttPublish takesAll (calls newClient []).1 (utf8 "/a")
      helloMsg).2.2.1 (List.replicate 65534 (.op .packetid))).2 + 1 := by
  have htopic : checkTopic .name (utf8 "/a") = true :=
    (checkTopic_short .name (by decide)).mpr ⟨by decide, by decide, by decide, by decide⟩
  obtain ⟨hrc, hclient⟩ := wrapperMqttPublish_takesAll newClient (utf8 "/a") helloMsg htopic rfl rfl
    (by decide) (by decide)
  refine identifiers_apart newClient [] (List.replicate 65534 (.op .packetid)) takesAll takesAll
    (utf8 "/a") (utf8 "/a") helloMsg helloMsg rfl ?_ ?_
  · rw [calls, hrc]
    decide
  · rw [calls, hrc, hclient, calls_packetid]
    rw [(wrapperMqttPublish_takesAll _ (utf8 "/a") helloMsg htopic rfl rfl (by decide) _).1]
    · rw [nextId_iterate (by decide) (by decide)]
      decide
    · exact show 1 < repubNumMax by decide

/-! ## Reading it back -/

/-- The message that `MQTTDeserialize_publish` finds in `mem`: its flags, its
identifier, and its topic and payload where they are said to be. -/
structure Finds (mem : List UInt8) (d q r : UInt8) (id : ℕ) (t s : List UInt8) : Prop where
  rc : (deserializePublish mem).1 = 1
  dup : (deserializePublish mem).2.dup = d
  qos : (deserializePublish mem).2.qos = q
  retained : (deserializePublish mem).2.retained = r
  packetId : q > 0 → (deserializePublish mem).2.packetId = id
  topicLen : (deserializePublish mem).2.topicLen = t.length
  topic : ∃ data, (deserializePublish mem).2.topicData = some data ∧
    (mem.drop data).take t.length = t
  payloadLen : (deserializePublish mem).2.payloadLen = s.length
  payload : ∃ data, (deserializePublish mem).2.payload = some data ∧
    (mem.drop data).take s.length = s

/-- **A message is found as it was published**, whatever follows its packet in
memory. -/
theorem finds_publishPacket {dup qos retained : UInt8} {packetid : ℕ} {topic payload : List UInt8}
    (more : List UInt8) (hdup : dup < 2) (hqos : qos < 4) (hretained : retained < 2)
    (hid : packetid < 2 ^ 16) (htopic : topic.length < 2 ^ 16)
    (hlt : (publishBody topic (publishRest qos packetid payload)).length < 128 ^ 4) :
    Finds (publishPacket dup qos retained packetid topic payload ++ more) dup qos retained packetid
      topic payload := by
  obtain ⟨htype, hd, hq, hr⟩ := header_fields (show publishType < 16 by decide) hdup hqos hretained
  rw [publishPacket]
  set head := header publishType dup qos retained with hhead
  set rest := publishRest qos packetid payload with hrest
  set body := publishBody topic rest with hbody
  have hblen : body.length = 2 + topic.length + rest.length := length_publishBody
  have hrlen : rest.length = payload.length + idBytes qos := length_publishRest qos packetid payload
  have hread : readInt (packetBytes head body ++ more) (1 + (Varint.encode body.length).length) =
      topic.length := by
    rw [readInt_packetBytes head more hbody, Varint.toNat_ofNat (by omega),
      Varint.toNat_ofNat (by omega)]
    omega
  -- the fields, where the bytes have them
  have hdes : deserializePublish (packetBytes head body ++ more) =
      (1, { dup := dup, qos := qos, retained := retained,
            packetId := if qos > 0 then readInt (packetBytes head body ++ more)
              (1 + (Varint.encode body.length).length + 2 + topic.length) else 0,
            topicLen := topic.length,
            topicData := some (1 + (Varint.encode body.length).length + 2),
            payload := some (1 + (Varint.encode body.length).length + 2 + topic.length +
              idBytes qos),
            payloadLen := payload.length }) := by
    unfold deserializePublish
    rw [decode_packetBytes hlt]
    show (if headerType head ≠ publishType then _ else _) = _
    rw [if_neg (not_not.mpr htype)]
    simp only [hread]
    rw [if_neg (by omega), if_neg (by omega)]
    have hmem : (packetBytes head body ++ more).headD 0 = head := rfl
    have hleft : ((1 + (Varint.encode body.length).length + body.length : ℕ) : ℤ) -
        (1 + (Varint.encode body.length).length + 2 + topic.length + idBytes qos : ℕ) =
          payload.length := by
      omega
    rw [hmem, hd, hr, ← hleft, show (head &&& 0x06) >>> 1 = qos from hq]
    unfold idBytes
    by_cases hpos : qos > 0
    · simp only [if_pos hpos]
    · simp only [if_neg hpos, Nat.add_zero]
  -- what is before the identifier
  obtain ⟨front, hfront, hsplit⟩ : ∃ front : List UInt8,
      front.length = 1 + (Varint.encode body.length).length + 2 + topic.length ∧
        packetBytes head body ++ more = front ++ (rest ++ more) := by
    refine ⟨head :: (Varint.encode body.length ++ (int2 topic.length ++ topic)), ?_, ?_⟩
    · simp only [List.length_cons, List.length_append, length_int2]
      omega
    · rw [packetBytes, show body = int2 topic.length ++ (topic ++ rest) from hbody]
      simp
  refine ⟨by rw [hdes], by rw [hdes], by rw [hdes], by rw [hdes], fun hpos => ?_, by rw [hdes],
    ⟨_, by rw [hdes], ?_⟩, by rw [hdes], ⟨_, by rw [hdes], ?_⟩⟩
  · rw [hdes]
    simp only [if_pos hpos]
    rw [← hfront, hsplit, hrest, publishRest, if_pos hpos, List.append_assoc]
    exact readInt_int2 hid front (payload ++ more)
  · rw [drop_packetBytes, hbody, publishBody]
    simp
  · rw [← hfront, hsplit, ← List.drop_drop, List.drop_left, hrest, publishRest, idBytes]
    split
    · rw [List.append_assoc, ← length_int2 packetid, List.drop_left, List.take_left]
    · rw [List.nil_append, List.drop_zero, List.take_left]

/-- **What is published is read.** A publish succeeds exactly where its
message has at most 1019 bytes, there is room for it and the network takes
it, in as many pieces as it likes; a client of the same code that gets
these bytes finds the message as it was published. -/
theorem mqttPublish_read (p : Publishing) (c : Client) (topicName : List UInt8)
    (topicMsg : TopicMsg) (left : List UInt8) (hqos : topicMsg.qos < 4)
    (hretain : topicMsg.retain < 2) :
    ((mqttPublish p c topicName topicMsg).1 = successReturn ↔
      p.bufGranted = true ∧
        topicName.length + topicMsg.payload.length + idBytes topicMsg.qos ≤ 1019 ∧
        Room p c topicMsg ∧ (sendPacket (topicMsg.packet topicName) p.writes).2 = true) ∧
    ((mqttPublish p c topicName topicMsg).1 = successReturn →
      ∃ r, readPacket { left := left, net := arrive (mqttPublish p c topicName topicMsg).2.2,
                        headGranted := true, packetGranted := true, dropGranted := true } =
          .packet r ∧ r.type = publishType ∧
        Finds r.buf.bytes 0 topicMsg.qos topicMsg.retain topicMsg.packetId.toNat topicName
          topicMsg.payload) := by
  have hsuccess := mqttPublish_success_iff p c topicName topicMsg
  refine ⟨hsuccess, fun hok => ?_⟩
  obtain ⟨-, hfits, -, -⟩ := hsuccess.mp hok
  rcases mqttPublish_spec p c topicName topicMsg with ⟨-, -, hwire, -⟩ | ⟨hrc, -, -, -⟩
  · rw [hwire]
    have hlen : (topicMsg.packet topicName).length ≤ 1024 := length_publishPacket_le hfits
    obtain ⟨r, tail, hread, hlaid⟩ := readPacket_arrive left _ (show (packetBytes
      (header publishType 0 topicMsg.qos topicMsg.retain) (publishBody topicName (publishRest
        topicMsg.qos topicMsg.packetId.toNat topicMsg.payload))).length ≤ messageMaxlen from hlen)
    obtain ⟨htype, -⟩ := header_fields (show publishType < 16 by decide) (show (0 : UInt8) < 2 by
      decide) hqos hretain
    refine ⟨r, hread, hlaid.type.trans htype, ?_⟩
    rw [hlaid.bytes]
    exact finds_publishPacket tail (by decide) hqos hretain topicMsg.packetId.toNat_lt
      (by omega) hlaid.lt
  · rw [hok] at hrc
    exact absurd hrc (by decide)

/-- A message of five bytes, over a network that takes all of it. -/
theorem mqttPublish_read_hello :
    ((mqttPublish takesAll newClient (utf8 "/a") helloMsg).1 = successReturn ↔
      takesAll.bufGranted = true ∧
        (utf8 "/a").length + helloMsg.payload.length + idBytes helloMsg.qos ≤ 1019 ∧
        Room takesAll newClient helloMsg ∧
        (sendPacket (helloMsg.packet (utf8 "/a")) takesAll.writes).2 = true) ∧
    ((mqttPublish takesAll newClient (utf8 "/a") helloMsg).1 = successReturn →
      ∃ r, readPacket { left := [],
                        net := arrive (mqttPublish takesAll newClient (utf8 "/a") helloMsg).2.2,
                        headGranted := true, packetGranted := true, dropGranted := true } =
          .packet r ∧ r.type = publishType ∧
        Finds r.buf.bytes 0 helloMsg.qos helloMsg.retain helloMsg.packetId.toNat (utf8 "/a")
          helloMsg.payload) :=
  mqttPublish_read takesAll newClient (utf8 "/a") helloMsg [] (by decide) (by decide)

end Mqtt

end WeatherTerminal
