import WeatherTerminal.Common.Outbox
import WeatherTerminal.Mqtt.Serialize
import WeatherTerminal.Mqtt.Model.Client
/-!
# MQTT — the messages that wait

The list of the messages that wait for their acknowledgement is an outbox,
in every order in which publishes, acknowledgements, the sending again and
changes of the client's state come (`run_refines`): a message is sent again
exactly as it was sent first, or in part where the network fails, never
behind its acknowledgement, and waits until then, through every loss of the
connection. At most 20 of them do.
-/

namespace WeatherTerminal

namespace Mqtt

open Outbox (Event Sound)

/-! ## Runs -/

/-- What the threads of the client do to it, each under the lock that it
holds. -/
inductive Op
  /-- An identifier is taken, for a publish or a subscription. -/
  | packetid
  | publish (p : Publishing) (topicName : List UInt8) (topicMsg : TopicMsg)
  | puback (mem : List UInt8) (mypacketid : UInt16)
  | pubInfoProc (visit : ℕ → Visit)
  /-- The connection is made, lost or found lost. -/
  | setState (s : ClientState)

/-- What becomes of a message under its identifier: accepted, acknowledged,
sent again whole, or cut short. -/
abbrev Sending := Event UInt16 (List UInt8)

/-- What has gone out for a node that is sent again: its message, or a
front of it where the network did not take the rest. -/
def sending (x : PubInfo × List UInt8) : Sending :=
  if x.2 = x.1.buf then .resend x.1.msgId x.2 else .cut x.1.msgId x.2

/-- One step, and what it is to the messages that wait. -/
def step (c : Client) : Op → Client × List Sending
  | .packetid => ((getNextPacketid c).2, [])
  | .publish p topicName topicMsg =>
      let (rc, c, wire) := mqttPublish p c topicName topicMsg
      (c, if rc = successReturn ∧ topicMsg.qos > 0 then [.accept topicMsg.packetId wire] else [])
  | .puback mem mypacketid =>
      ((handleRecvPuback c mem mypacketid).2,
        (pubackId mem mypacketid).toList.map Event.ack)
  | .pubInfoProc visit =>
      let (c, again) := pubInfoProc c visit
      (c, again.map sending)
  | .setState s => ({ c with clientState := s }, [])

/-- A run, and what it is to the messages that wait. -/
def run (c : Client) : List Op → Client × List Sending
  | [] => (c, [])
  | op :: ops =>
      let (c, es) := step c op
      let (c, fs) := run c ops
      (c, es ++ fs)

/-- The messages that wait: the nodes that are not masked. -/
def waiting (nodes : List PubInfo) : List (UInt16 × List UInt8) :=
  (nodes.filter fun node => node.nodeState = .normanl).map fun node => (node.msgId, node.buf)

/-! ## Steps -/

variable {c : Client} {nodes : List PubInfo}

/-- The messages that wait in two lists of nodes are those of the one, and
behind them those of the other. -/
theorem waiting_append (nodes more : List PubInfo) :
    waiting (nodes ++ more) = waiting nodes ++ waiting more := by
  rw [waiting, List.filter_append, List.map_append]
  rfl

/-- A node adds its message to those that wait, unless it is masked. -/
theorem waiting_cons (node : PubInfo) (nodes : List PubInfo) :
    waiting (node :: nodes) =
      (if node.nodeState = .normanl then [(node.msgId, node.buf)] else []) ++ waiting nodes := by
  rw [waiting, List.filter_cons]
  split
  · rename_i h
    rw [if_pos (of_decide_eq_true h)]
    rfl
  · rename_i h
    rw [if_neg (fun hn => h (decide_eq_true hn))]
    rfl

/-- An acknowledgement masks what has its identifier, so that the other
messages wait as before. -/
theorem waiting_mask (id : UInt16) (nodes : List PubInfo) :
    waiting (nodes.map fun node =>
        if node.msgId = id then { node with nodeState := .invalid } else node) =
      (waiting nodes).filter fun x => decide (x.1 ≠ id) := by
  induction nodes with
  | nil => rfl
  | cons node nodes ih =>
      rw [List.map_cons, waiting_cons, waiting_cons, List.filter_append, ih]
      congr 1
      by_cases hid : node.msgId = id
      · rw [if_pos hid, if_neg (by simp)]
        split
        · simp [hid]
        · rfl
      · rw [if_neg hid]
        split
        · simp [hid]
        · rfl

/-- What the loop leaves waits as before, what it sends again waits, and it
adds no node. -/
theorem pubInfoProcLoop_spec (timeout : UInt32) (nodes : List PubInfo) (visit : ℕ → Visit) :
    waiting (pubInfoProcLoop timeout nodes visit).1 = waiting nodes ∧
      (pubInfoProcLoop timeout nodes visit).1.length ≤ nodes.length ∧
      ∀ x ∈ (pubInfoProcLoop timeout nodes visit).2.1,
        (x.1.msgId, x.1.buf) ∈ waiting nodes ∧ x.2 <+: x.1.buf := by
  induction nodes generalizing visit with
  | nil => exact ⟨rfl, Nat.le_refl _, nofun⟩
  | cons node nodes ih =>
      obtain ⟨hwaiting, hlength, hagain⟩ := ih fun k => visit (k + 1)
      rw [pubInfoProcLoop]
      simp only
      by_cases hmasked : node.nodeState = .invalid
      · rw [if_pos hmasked, waiting_cons, if_neg (by rw [hmasked]; decide), List.nil_append]
        exact ⟨hwaiting, hlength.trans (Nat.le_succ _), hagain⟩
      have hnormanl : node.nodeState = .normanl := by
        cases h : node.nodeState
        · rfl
        · exact absurd h hmasked
      rw [if_neg hmasked]
      by_cases hearly : (visit 0).state ≠ .connected ∨
          timeSpend node.pubStartTime (visit 0).now ≤ timeout * 2
      · rw [if_pos hearly]
        refine ⟨?_, Nat.succ_le_succ hlength, fun x hx => ?_⟩
        · rw [waiting_cons, waiting_cons, hwaiting]
        · rw [waiting_cons]
          exact ⟨List.mem_append_right _ (hagain x hx).1, (hagain x hx).2⟩
      rw [if_neg hearly]
      have hbegin := (sendPacket_spec node.buf (visit 0).writes).1
      have hmem : (node.msgId, node.buf) ∈ waiting (node :: nodes) := by
        rw [waiting_cons, if_pos hnormanl]
        exact List.mem_append_left _ (List.mem_singleton.mpr rfl)
      split
      · refine ⟨?_, Nat.le_refl _, fun x hx => ?_⟩
        · rw [waiting_cons, waiting_cons]
        · obtain rfl := List.mem_singleton.mp hx
          exact ⟨hmem, hbegin⟩
      · refine ⟨?_, Nat.succ_le_succ hlength, fun x hx => ?_⟩
        · rw [waiting_cons, waiting_cons, hwaiting]
        · rcases List.mem_cons.mp hx with rfl | hx
          · exact ⟨hmem, hbegin⟩
          · rw [waiting_cons]
            exact ⟨List.mem_append_right _ (hagain x hx).1, (hagain x hx).2⟩

/-- What the loop leaves and what it sends are the packets of the list, and
what it sends is whole unless the network fails. -/
theorem pubInfoProcLoop_bufs (timeout : UInt32) (nodes : List PubInfo) (visit : ℕ → Visit) :
    (∀ node ∈ (pubInfoProcLoop timeout nodes visit).1, ∃ n ∈ nodes, node.buf = n.buf) ∧
      ∀ x ∈ (pubInfoProcLoop timeout nodes visit).2.1, (∃ n ∈ nodes, x.1.buf = n.buf) ∧
        ((pubInfoProcLoop timeout nodes visit).2.2 = false → x.2 = x.1.buf) := by
  induction nodes generalizing visit with
  | nil => exact ⟨nofun, nofun⟩
  | cons node nodes ih =>
      obtain ⟨hleft, hagain⟩ := ih fun k => visit (k + 1)
      have hmore : ∀ {b : List UInt8}, (∃ n ∈ nodes, b = n.buf) → ∃ n ∈ node :: nodes, b = n.buf :=
        fun ⟨n, hn, h⟩ => ⟨n, List.mem_cons_of_mem node hn, h⟩
      have hself : ∃ n ∈ node :: nodes, node.buf = n.buf := ⟨node, List.mem_cons_self, rfl⟩
      rw [pubInfoProcLoop]
      simp only
      split
      · exact ⟨fun n hn => hmore (hleft n hn),
          fun x hx => ⟨hmore (hagain x hx).1, (hagain x hx).2⟩⟩
      split
      · refine ⟨fun n hn => ?_, fun x hx => ⟨hmore (hagain x hx).1, (hagain x hx).2⟩⟩
        rcases List.mem_cons.mp hn with rfl | hn
        · exact hself
        · exact hmore (hleft n hn)
      have hwhole := (sendPacket_spec node.buf (visit 0).writes).2
      split
      · refine ⟨fun n hn => ?_, fun x hx => ?_⟩
        · rcases List.mem_cons.mp hn with rfl | hn
          · exact hself
          · exact ⟨n, List.mem_cons_of_mem node hn, rfl⟩
        · obtain rfl := List.mem_singleton.mp hx
          exact ⟨hself, nofun⟩
      · rename_i hsent
        refine ⟨fun n hn => ?_, fun x hx => ?_⟩
        · rcases List.mem_cons.mp hn with rfl | hn
          · exact hself
          · exact hmore (hleft n hn)
        · rcases List.mem_cons.mp hx with rfl | hx
          · exact ⟨hself, fun _ => hwhole.mp (Bool.eq_true_of_not_eq_false hsent)⟩
          · exact ⟨hmore (hagain x hx).1, (hagain x hx).2⟩

/-! ## A publish -/

/-- The bytes of an identifier in a message of this quality of service. -/
abbrev idBytes (qos : UInt8) : ℕ := if qos > 0 then 2 else 0

/-- What a publish sends first: the message serialized with DUP 0 under its
topic. -/
def TopicMsg.packet (topicMsg : TopicMsg) (topicName : List UInt8) : List UInt8 :=
  publishPacket 0 topicMsg.qos topicMsg.retain topicMsg.packetId.toNat topicName topicMsg.payload

/-- What is entered for it, with the time it goes out at, its identifier and
its bytes. -/
def TopicMsg.node (topicMsg : TopicMsg) (topicName : List UInt8) (now : UInt32) : PubInfo :=
  { pubStartTime := now, nodeState := .normanl, msgId := topicMsg.packetId,
    buf := topicMsg.packet topicName }

/-- The client that has accepted a message: a node more where the message asks
for an acknowledgement. -/
def Client.accept (c : Client) (topicMsg : TopicMsg) (topicName : List UInt8) (now : UInt32) :
    Client :=
  if topicMsg.qos > 0 then
    { c with listPubWaitAck := c.listPubWaitAck ++ [topicMsg.node topicName now] }
  else c

/-- The send buffer takes every message of up to 1019 bytes. -/
theorem packetLen_le_sendSize {k : ℕ} (len : ℕ) (hk : k ≤ 3) :
    packetLen (2 + len + k) ≤ sendSize len ↔ len + k ≤ 1019 := by
  unfold packetLen sendSize
  simp only [messageMaxlen, sendMargin]
  split_ifs <;> omega

/-- What a serializer leaves in a send buffer for `len` bytes, `k` being what
it writes beside them: the packet, or an error. -/
theorem serialized_alloc (len : ℕ) {k : ℕ} (head : UInt8) (bs : List UInt8) (hk : k ≤ 3)
    (hlen : bs.length = 2 + len + k) :
    let r := if sendSize len < packetLen (2 + len + k) then (bufferTooShort, allocSendBuffer len)
      else (((packetBytes head bs).length : ℤ),
        (allocSendBuffer len).storeAll 0 (packetBytes head bs))
    if len + k ≤ 1019 then
      0 < r.1 ∧ r.2.bytes.take r.1.toNat = packetBytes head bs ∧ r.2.overrun = false
    else r.1 ≤ 0 := by
  simp only
  have hfits := packetLen_le_sendSize len hk
  by_cases h : len + k ≤ 1019
  · rw [if_pos h, if_neg (Nat.not_lt.mpr (hfits.mpr h))]
    obtain ⟨htake, hover⟩ := take_serialized (allocSendBuffer len) head bs
      (by rw [hlen]; omega) (by rw [hlen]; exact hfits.mpr h)
    refine ⟨?_, htake, hover⟩
    rw [length_packetBytes]
    omega
  · rw [if_neg h, if_pos (Nat.lt_of_not_le (fun hle => h (hfits.mp hle)))]
    exact show bufferTooShort ≤ 0 by decide

/-- What is serialized for a publish is its packet, the buffer being large
enough for every topic and message. -/
theorem serializePublish_alloc (topicMsg : TopicMsg) (topicName : List UInt8) :
    let r := serializePublish (allocSendBuffer (topicName.length + topicMsg.payload.length)) 0
      topicMsg.qos topicMsg.retain topicMsg.packetId.toNat { cstring := some topicName }
      topicMsg.payload
    if topicName.length + topicMsg.payload.length + idBytes topicMsg.qos ≤ 1019 then
      0 < r.1 ∧ r.2.bytes.take r.1.toNat = topicMsg.packet topicName ∧ r.2.overrun = false
    else r.1 ≤ 0 := by
  rw [serializePublish_eq, Nat.add_assoc 2]
  refine serialized_alloc _ (header publishType 0 topicMsg.qos topicMsg.retain) _
    (show idBytes topicMsg.qos ≤ 3 by unfold idBytes; split <;> omega) ?_
  rw [length_publishBody, length_publishRest, ← Nat.add_assoc, ← Nat.add_assoc]

/-- There is room in the list for the message, where it needs any. -/
def Room (p : Publishing) (c : Client) (topicMsg : TopicMsg) : Prop :=
  topicMsg.qos > 0 → c.listPubWaitAck.length < repubNumMax ∧ p.nodeGranted = true

/-- A message is entered behind the others, or there is no room. -/
theorem pushed_cases (p : Publishing) (c : Client) (topicName : List UInt8) (topicMsg : TopicMsg) :
    let pushed :=
      if topicMsg.qos > 0 then
        pushPubInfoTo c (topicMsg.packet topicName) topicMsg.packetId p.nodeGranted p.now
      else some c
    (pushed = none ∧ ¬Room p c topicMsg) ∨
      (pushed = some (c.accept topicMsg topicName p.now) ∧ Room p c topicMsg) := by
  simp only
  by_cases hqos : topicMsg.qos > 0
  · rw [if_pos hqos, pushPubInfoTo]
    split
    · rename_i hfull
      exact Or.inl ⟨rfl, fun h => Nat.not_le.mpr (h hqos).1 hfull⟩
    split
    · rename_i hdenied
      exact Or.inl ⟨rfl, fun h => Bool.false_ne_true (hdenied.symm.trans (h hqos).2)⟩
    · rename_i hroom hgranted
      exact Or.inr ⟨by rw [Client.accept, if_pos hqos]; rfl,
        fun _ => ⟨Nat.not_le.mp hroom, Bool.eq_true_of_not_eq_false hgranted⟩⟩
  · rw [if_neg hqos]
    exact Or.inr ⟨by rw [Client.accept, if_neg hqos], fun h => absurd h hqos⟩

/-- **What a publish does**: it accepts the message and sends all of its
packet, or it fails, with a front of the packet out only where the network
fails, and keeps nothing. -/
theorem mqttPublish_spec (p : Publishing) (c : Client) (topicName : List UInt8)
    (topicMsg : TopicMsg) :
    let r := mqttPublish p c topicName topicMsg
    (r.1 = successReturn ∧ r.2.1 = c.accept topicMsg topicName p.now ∧
        r.2.2 = topicMsg.packet topicName ∧ Room p c topicMsg) ∨
      (r.1 < 0 ∧ r.2.1 = c ∧ r.2.2 <+: topicMsg.packet topicName ∧
        r.2.2 ≠ topicMsg.packet topicName ∧ (r.1 ≠ networkError → r.2.2 = [])) := by
  have hserialized := serializePublish_alloc topicMsg topicName
  have hne : topicMsg.packet topicName ≠ [] := List.cons_ne_nil _ _
  have hnothing : ([] : List UInt8) <+: topicMsg.packet topicName := List.nil_prefix
  simp only at hserialized ⊢
  rw [mqttPublish]
  by_cases hbuf : p.bufGranted = false
  · rw [if_pos hbuf]
    exact Or.inr ⟨show failReturn < 0 by decide, rfl, hnothing, hne.symm, fun _ => rfl⟩
  rw [if_neg hbuf]
  simp only
  by_cases hfits : topicName.length + topicMsg.payload.length + idBytes topicMsg.qos ≤ 1019
  · rw [if_pos hfits] at hserialized
    obtain ⟨hpos, hpacket, -⟩ := hserialized
    rw [if_neg (by omega), hpacket]
    rcases pushed_cases p c topicName topicMsg with ⟨hnone, -⟩ | ⟨hsome, hroom⟩
    · rw [hnone]
      exact Or.inr ⟨show pushToListError < 0 by decide, rfl, hnothing, hne.symm, fun _ => rfl⟩
    rw [hsome]
    obtain ⟨hbegin, hall⟩ := sendPacket_spec (topicMsg.packet topicName) p.writes
    rcases hsend : sendPacket (topicMsg.packet topicName) p.writes with ⟨wire, sent⟩
    rw [hsend] at hbegin hall
    cases sent with
    | true => exact Or.inl ⟨rfl, rfl, hall.mp rfl, hroom⟩
    | false =>
        refine Or.inr ⟨show networkError < 0 by decide, ?_, hbegin, fun h => ?_,
          fun h => absurd rfl h⟩
        · show (if topicMsg.qos > 0 then _ else _) = c
          rw [Client.accept]
          split
          · show { c with listPubWaitAck := (c.listPubWaitAck ++ [_]).dropLast } = c
            rw [List.dropLast_concat]
          · rfl
        · exact Bool.false_ne_true (hall.mpr h)
  · rw [if_neg hfits] at hserialized
    rw [if_pos hserialized]
    exact Or.inr ⟨show publishPacketError < 0 by decide, rfl, hnothing, hne.symm, fun _ => rfl⟩

/-- **When a publish succeeds**: its topic and its payload have at most 1019
bytes between them, with those of the identifier, there is room in the list
where it needs any, the allocations are granted and the network takes the
packet. -/
theorem mqttPublish_success_iff (p : Publishing) (c : Client) (topicName : List UInt8)
    (topicMsg : TopicMsg) :
    (mqttPublish p c topicName topicMsg).1 = successReturn ↔
      p.bufGranted = true ∧
        topicName.length + topicMsg.payload.length + idBytes topicMsg.qos ≤ 1019 ∧
        Room p c topicMsg ∧ (sendPacket (topicMsg.packet topicName) p.writes).2 = true := by
  have hserialized := serializePublish_alloc topicMsg topicName
  simp only at hserialized
  rw [mqttPublish]
  by_cases hbuf : p.bufGranted = false
  · rw [if_pos hbuf, hbuf]
    exact iff_of_false (show failReturn ≠ successReturn by decide) fun h => nomatch h.1
  rw [if_neg hbuf, Bool.not_eq_false] at *
  simp only
  by_cases hfits : topicName.length + topicMsg.payload.length + idBytes topicMsg.qos ≤ 1019
  · rw [if_pos hfits] at hserialized
    obtain ⟨hlen, hpacket, -⟩ := hserialized
    rw [if_neg (by omega), hpacket]
    rcases pushed_cases p c topicName topicMsg with ⟨hnone, hroom⟩ | ⟨hsome, hroom⟩
    · rw [hnone]
      exact iff_of_false (show pushToListError ≠ successReturn by decide) fun h => hroom h.2.2.1
    rw [hsome]
    rcases sendPacket (topicMsg.packet topicName) p.writes with ⟨wire, - | -⟩
    · exact iff_of_false (show networkError ≠ successReturn by decide) fun h => nomatch h.2.2.2
    · exact iff_of_true rfl ⟨hbuf, hfits, hroom, rfl⟩
  · rw [if_neg hfits] at hserialized
    rw [if_pos hserialized]
    exact iff_of_false (show publishPacketError ≠ successReturn by decide) fun h => hfits h.2.1

/-! ## The list is an outbox -/

/-- What is left of a packet that the network did not take to its end. -/
def Short (wire packet : List UInt8) : Prop := wire <+: packet ∧ wire ≠ packet

/-- What a step does to the list is what its events do to what waits, and
the list stays within its bound. -/
structure Refines (c c' : Client) (es : List Sending) : Prop where
  waiting : waiting c'.listPubWaitAck = Outbox.run (waiting c.listPubWaitAck) es
  sound : Sound Short (Mqtt.waiting c.listPubWaitAck) es
  bound : c.listPubWaitAck.length ≤ repubNumMax → c'.listPubWaitAck.length ≤ repubNumMax
  /-- What is accepted is a message under its own identifier. -/
  packets : ∀ id packet, Event.accept id packet ∈ es →
    ∃ (topicName : List UInt8) (topicMsg : TopicMsg), topicMsg.qos > 0 ∧ topicMsg.packetId = id ∧
      packet = topicMsg.packet topicName

/-- A step that leaves the list of nodes alone is no event for the messages
that wait. -/
theorem Refines.of_eq {c' : Client} (h : c'.listPubWaitAck = c.listPubWaitAck) :
    Refines c c' [] :=
  ⟨by rw [h]; rfl, .nil _, by rw [h]; exact id, nofun⟩

/-- Two steps, one after the other, are the events of both. -/
theorem Refines.trans {c c' c'' : Client} {es fs : List Sending} (h : Refines c c' es)
    (h' : Refines c' c'' fs) : Refines c c'' (es ++ fs) where
  waiting := by rw [h'.waiting, h.waiting, Outbox.run_append]
  sound := h.sound.append (h.waiting ▸ h'.sound)
  bound hle := h'.bound (h.bound hle)
  packets id packet hmem := (List.mem_append.mp hmem).elim (h.packets id packet)
    (h'.packets id packet)

/-- Sending again changes nothing about what waits, and is of it. -/
theorem sound_sendings {w : List (UInt16 × List UInt8)} {again : List (PubInfo × List UInt8)}
    (h : ∀ x ∈ again, (x.1.msgId, x.1.buf) ∈ w ∧ x.2 <+: x.1.buf) :
    Sound Short w (again.map sending) ∧ Outbox.run w (again.map sending) = w := by
  induction again with
  | nil => exact ⟨.nil w, rfl⟩
  | cons x again ih =>
      obtain ⟨hsound, hrun⟩ := ih fun y hy => h y (List.mem_cons_of_mem x hy)
      obtain ⟨hmem, hbegin⟩ := h x List.mem_cons_self
      rw [List.map_cons, sending]
      split
      · rename_i hall
        rw [hall]
        exact ⟨.cons hmem hsound, hrun⟩
      · rename_i hcut
        exact ⟨.cons ⟨x.1.buf, hmem, hbegin, hcut⟩ hsound, hrun⟩

/-- **Every step is the events it stands for**, done to the outbox of the
messages that wait. -/
theorem step_refines (c : Client) (op : Op) : Refines c (step c op).1 (step c op).2 := by
  cases op with
  | packetid => exact .of_eq rfl
  | setState s => exact .of_eq rfl
  | publish p topicName topicMsg =>
      rw [step]
      rcases mqttPublish_spec p c topicName topicMsg with
        ⟨hrc, hclient, hwire, hroom⟩ | ⟨hrc, hclient, -, -⟩
      · simp only [hrc, hclient, hwire, true_and]
        by_cases hqos : topicMsg.qos > 0
        · rw [if_pos hqos, Client.accept, if_pos hqos]
          refine ⟨waiting_append _ _, .cons trivial (.nil _), fun _ => ?_, fun id packet hmem => ?_⟩
          · rw [List.length_append]
            exact (hroom hqos).1
          · injection List.mem_singleton.mp hmem with hid hpacket
            exact ⟨topicName, topicMsg, hqos, hid.symm, hpacket⟩
        · rw [if_neg hqos, Client.accept, if_neg hqos]
          exact .of_eq rfl
      · simp only [hclient]
        rw [if_neg (fun h => absurd h.1 (ne_of_lt hrc))]
        exact .of_eq rfl
  | puback mem mypacketid =>
      rw [step, handleRecvPuback]
      rcases pubackId mem mypacketid with - | id
      · exact .of_eq rfl
      · refine ⟨waiting_mask id _, .cons trivial (.nil _), ?_, ?_⟩
        · simp [maskPubInfoFrom]
        · simp
  | pubInfoProc visit =>
      rw [step, pubInfoProc]
      obtain ⟨hwaiting, hlength, hagain⟩ :=
        pubInfoProcLoop_spec c.requestTimeoutMs c.listPubWaitAck visit
      obtain ⟨hsound, hrun⟩ := sound_sendings hagain
      refine ⟨hwaiting.trans hrun.symm, hsound, fun h => hlength.trans h, fun id packet hmem => ?_⟩
      obtain ⟨x, -, hx⟩ := List.mem_map.mp hmem
      rw [sending] at hx
      split at hx
      · cases hx
      · cases hx

/-- **Every run is its events, one after the other**, by induction over the
steps. -/
theorem run_refines (c : Client) (ops : List Op) : Refines c (run c ops).1 (run c ops).2 := by
  induction ops generalizing c with
  | nil => exact .of_eq rfl
  | cons op ops ih =>
      rw [run]
      exact (step_refines c op).trans (ih _)

/-- A message that is cut short leaves the client disconnected. -/
theorem step_cut {op : Op} {id : UInt16} {wire : List UInt8}
    (h : Event.cut id wire ∈ (step c op).2) : (step c op).1.clientState = .disconnected := by
  cases op with
  | packetid => exact absurd h List.not_mem_nil
  | setState s => exact absurd h List.not_mem_nil
  | publish p topicName topicMsg =>
      rw [step] at h
      simp only at h
      split at h
      · cases List.mem_singleton.mp h
      · exact absurd h List.not_mem_nil
  | puback mem mypacketid =>
      obtain ⟨x, -, hx⟩ := List.mem_map.mp h
      cases hx
  | pubInfoProc visit =>
      obtain ⟨x, hx, hcut⟩ := List.mem_map.mp h
      rw [sending] at hcut
      split at hcut
      · cases hcut
      rename_i hshort
      have hfailed : (pubInfoProcLoop c.requestTimeoutMs c.listPubWaitAck visit).2.2 = true := by
        by_contra hsent
        exact hshort (((pubInfoProcLoop_bufs c.requestTimeoutMs c.listPubWaitAck visit).2 x hx).2
          (Bool.eq_false_of_not_eq_true hsent))
      exact if_pos hfailed

/-- **A message is sent until it is acknowledged.** In any order of
publishes, acknowledgements, sendings again and changes of the connection,
from a client that keeps nothing: what waits is what was accepted and not
acknowledged since, what goes out again is such a message, byte for byte,
and under the identifier that is in it, and there are at most 20 of them.
Where the network fails in the middle of one, a front of it has gone out,
and the client is disconnected. -/
theorem run_at_least_once (c : Client) (ops : List Op) (hempty : c.listPubWaitAck = []) :
    (run c ops).1.listPubWaitAck.length ≤ repubNumMax ∧
      (∀ id packet, (id, packet) ∈ waiting (run c ops).1.listPubWaitAck ↔
        ∃ pre post, (run c ops).2 = pre ++ .accept id packet :: post ∧
          ∀ e ∈ post, e ≠ .ack id) ∧
      (∀ pre id packet post, (run c ops).2 = pre ++ .resend id packet :: post →
        ∃ before since, pre = before ++ .accept id packet :: since ∧ ∀ e ∈ since, e ≠ .ack id) ∧
      (∀ pre id wire post, (run c ops).2 = pre ++ .cut id wire :: post →
        ∃ packet before since, Short wire packet ∧ pre = before ++ .accept id packet :: since ∧
          ∀ e ∈ since, e ≠ .ack id) ∧
      (∀ before op after, ops = before ++ op :: after →
        ∀ id wire, Event.cut id wire ∈ (step (run c before).1 op).2 →
          (step (run c before).1 op).1.clientState = .disconnected) ∧
      ∀ id packet, Event.accept id packet ∈ (run c ops).2 →
        ∃ topicName topicMsg, TopicMsg.packetId topicMsg = id ∧
          packet = topicMsg.packet topicName := by
  obtain ⟨hwaiting, hsound, hbound, hpackets⟩ := run_refines c ops
  have hnil : waiting c.listPubWaitAck = [] := by rw [hempty]; rfl
  rw [hnil] at hwaiting hsound
  refine ⟨hbound (by rw [hempty]; exact Nat.zero_le _), fun id packet => ?_,
    fun pre id packet post h => ?_, fun pre id wire post h => ?_,
    fun before op after _ id wire => step_cut, fun id packet h => ?_⟩
  · rw [hwaiting, Outbox.mem_run]
    exact or_iff_right fun h => absurd h.1 List.not_mem_nil
  · rw [h] at hsound
    exact hsound.accepted_of_resend
  · rw [h] at hsound
    exact hsound.accepted_of_cut
  · obtain ⟨topicName, topicMsg, -, hid, hpacket⟩ := hpackets id packet h
    exact ⟨topicName, topicMsg, hid, hpacket⟩

/-- A message is lost sight of with the connection, sent again, at first in
part, and acknowledged. -/
def helloOps : List Op :=
  [.publish ⟨true, true, 0, [.wrote 1024]⟩ (utf8 "/a") ⟨1, 0, 7, utf8 "hello"⟩,
    .pubInfoProc fun _ => ⟨.connected, 5000, [.wrote 3], 5001⟩,
    .setState .connected, .pubInfoProc fun _ => ⟨.connected, 9999, [.wrote 1024], 9999⟩,
    .puback [0x40, 2, 0, 7] 0]

/-- A message that is accepted, sent again in part and then whole, and
acknowledged. -/
theorem run_at_least_once_hello :
    let c : Client := ⟨.connected, 7, 2000, []⟩
    let r := run c helloOps
    r.1.listPubWaitAck.length ≤ repubNumMax ∧
      (∀ id packet, (id, packet) ∈ waiting r.1.listPubWaitAck ↔
        ∃ pre post, r.2 = pre ++ .accept id packet :: post ∧ ∀ e ∈ post, e ≠ .ack id) ∧
      (∀ pre id packet post, r.2 = pre ++ .resend id packet :: post →
        ∃ before since, pre = before ++ .accept id packet :: since ∧ ∀ e ∈ since, e ≠ .ack id) ∧
      (∀ pre id wire post, r.2 = pre ++ .cut id wire :: post →
        ∃ packet before since, Short wire packet ∧ pre = before ++ .accept id packet :: since ∧
          ∀ e ∈ since, e ≠ .ack id) ∧
      (∀ before op after, helloOps = before ++ op :: after →
        ∀ id wire, Event.cut id wire ∈ (step (run c before).1 op).2 →
          (step (run c before).1 op).1.clientState = .disconnected) ∧
      ∀ id packet, Event.accept id packet ∈ r.2 →
        ∃ topicName topicMsg, TopicMsg.packetId topicMsg = id ∧
          packet = topicMsg.packet topicName :=
  run_at_least_once ⟨.connected, 7, 2000, []⟩ helloOps rfl

/-! ## What is sent again -/

/-- The messages that wait, each with what the loop meets at it: the state
and the clock are read anew at every node, and move on while one is sent. -/
def visited : List PubInfo → (ℕ → Visit) → List (PubInfo × Visit)
  | [], _ => []
  | node :: nodes, visit => (node, visit 0) :: visited nodes fun k => visit (k + 1)

/-- Every node of the list is visited once, in the order of the list. -/
theorem map_fst_visited (nodes : List PubInfo) (visit : ℕ → Visit) :
    (visited nodes visit).map Prod.fst = nodes := by
  induction nodes generalizing visit with
  | nil => rfl
  | cons node nodes ih => rw [visited, List.map_cons, ih]

/-- A change to every visit does not change which node it is of. -/
theorem visited_map (g : Visit → Visit) (nodes : List PubInfo) (visit : ℕ → Visit) :
    (visited nodes fun k => g (visit k)) = (visited nodes visit).map fun x => (x.1, g x.2) := by
  induction nodes generalizing visit with
  | nil => rfl
  | cons node nodes ih => rw [visited, visited, List.map_cons, ih]

/-- A message whose last sending was more than twice the timeout ago when the
loop comes to its node. -/
def Overdue (c : Client) (v : Visit) (node : PubInfo) : Prop :=
  node.nodeState = .normanl ∧ c.requestTimeoutMs * 2 < timeSpend node.pubStartTime v.now

instance (c : Client) (v : Visit) (node : PubInfo) : Decidable (Overdue c v node) :=
  inferInstanceAs (Decidable (_ ∧ _))

/-- The node of a message that has been sent again. -/
def PubInfo.restarted (node : PubInfo) (v : Visit) : PubInfo :=
  { node with pubStartTime := v.restart }

/-- The loop where every packet that it sends goes out. -/
theorem pubInfoProcLoop_overdue (c : Client) (nodes : List PubInfo) (visit : ℕ → Visit)
    (hconnected : ∀ x ∈ visited nodes visit, x.2.state = .connected)
    (hwrites : ∀ x ∈ visited nodes visit, Overdue c x.2 x.1 →
      (sendPacket x.1.buf x.2.writes).2 = true) :
    pubInfoProcLoop c.requestTimeoutMs nodes visit =
      (((visited nodes visit).filter fun x => x.1.nodeState = .normanl).map fun x =>
          if Overdue c x.2 x.1 then x.1.restarted x.2 else x.1,
        ((visited nodes visit).filter fun x => Overdue c x.2 x.1).map fun x =>
          (x.1.restarted x.2, x.1.buf),
        false) := by
  induction nodes generalizing visit with
  | nil => rfl
  | cons node nodes ih =>
      have hrest := ih (fun k => visit (k + 1))
        (fun x hx => hconnected x (List.mem_cons_of_mem _ hx))
        (fun x hx => hwrites x (List.mem_cons_of_mem _ hx))
      rw [pubInfoProcLoop, visited]
      simp only [hrest]
      by_cases hmasked : node.nodeState = .invalid
      · have hnot : ¬Overdue c (visit 0) node := fun h => by
          rw [Overdue, hmasked] at h
          exact nomatch h.1
        rw [if_pos hmasked, List.filter_cons_of_neg (by simp [hmasked]),
          List.filter_cons_of_neg (by simpa using hnot)]
      have hnormanl : node.nodeState = .normanl := by
        cases h : node.nodeState
        · rfl
        · exact absurd h hmasked
      rw [if_neg hmasked, List.filter_cons_of_pos (by simpa using hnormanl), List.map_cons]
      by_cases hearly : timeSpend node.pubStartTime (visit 0).now ≤ c.requestTimeoutMs * 2
      · have hnot : ¬Overdue c (visit 0) node := fun h => absurd hearly (UInt32.not_le.mpr h.2)
        rw [if_pos (Or.inr hearly), if_neg hnot, List.filter_cons_of_neg (by simpa using hnot)]
      · have hdue : Overdue c (visit 0) node := ⟨hnormanl, UInt32.not_le.mp hearly⟩
        have hstate : (visit 0).state = .connected := hconnected _ List.mem_cons_self
        rw [if_neg (fun h => h.elim (fun hs => hs hstate) hearly), if_pos hdue,
          List.filter_cons_of_pos (by simpa using hdue), List.map_cons]
        have hall : (sendPacket node.buf (visit 0).writes).2 = true :=
          hwrites _ List.mem_cons_self hdue
        have hwire := (sendPacket_spec node.buf (visit 0).writes).2.mp hall
        rw [if_neg (by rw [hall]; decide), hwire]
        rfl

/-- **Exactly what is overdue is sent again**, in the order in which it was
accepted, on a connection that takes it: `MQTTPubInfoProc` takes out what
is acknowledged, sends the packets of the messages that have waited for
more than twice the timeout since they were sent, by the clock when it comes
to them, and starts their time anew; the others stay as they are. -/
theorem pubInfoProc_overdue (c : Client) (visit : ℕ → Visit)
    (hconnected : ∀ x ∈ visited c.listPubWaitAck visit, x.2.state = .connected)
    (hwrites : ∀ x ∈ visited c.listPubWaitAck visit, Overdue c x.2 x.1 →
      (sendPacket x.1.buf x.2.writes).2 = true) :
    pubInfoProc c visit =
      ({ c with listPubWaitAck := ((visited c.listPubWaitAck visit).filter fun x =>
          x.1.nodeState = .normanl).map fun x =>
            if Overdue c x.2 x.1 then x.1.restarted x.2 else x.1 },
        ((visited c.listPubWaitAck visit).filter fun x => Overdue c x.2 x.1).map fun x =>
          (x.1.restarted x.2, x.1.buf)) := by
  rw [pubInfoProc, pubInfoProcLoop_overdue c c.listPubWaitAck visit hconnected hwrites]
  rfl

/-- Of three messages that wait, one is acknowledged, and one is overdue
only by the time that the sending of the other has taken. -/
theorem pubInfoProc_overdue_three :
    let c : Client := ⟨.connected, 3, 2000,
      [⟨0, .invalid, 1, [1]⟩, ⟨0, .normanl, 2, [2, 2]⟩, ⟨500, .normanl, 3, [3]⟩]⟩
    let visit : ℕ → Visit := fun k =>
      ⟨.connected, 3999 + 300 * UInt32.ofNat k, [.wrote 9], 4200 + 300 * UInt32.ofNat k⟩
    pubInfoProc c visit =
      ({ c with listPubWaitAck := ((visited c.listPubWaitAck visit).filter fun x =>
          x.1.nodeState = .normanl).map fun x =>
            if Overdue c x.2 x.1 then x.1.restarted x.2 else x.1 },
        ((visited c.listPubWaitAck visit).filter fun x => Overdue c x.2 x.1).map fun x =>
          (x.1.restarted x.2, x.1.buf)) :=
  pubInfoProc_overdue _ _ (by decide) (by decide)

end Mqtt

end WeatherTerminal
