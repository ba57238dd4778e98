import WeatherTerminal.Mqtt.Connect
import WeatherTerminal.Mqtt.Subscription
/-!
# MQTT — what goes out over a connection

Over every run of the client, reconnections among it, the connection of a
client that is connected has carried a CONNECT and whole packets behind it
(`wire_framed`): a packet that the network cuts short makes the client
disconnected before anything else goes out. One kind of packet does not,
the acknowledgement of a message (`cycle_cut_ack`).
-/

namespace WeatherTerminal

namespace Mqtt

variable {c c' c'' : Session} {packet wire : List UInt8} {rc : ℤ}

/-! ## Over one connection -/

/-- The packets that wait to be sent again are whole, as they were when they
were first sent. -/
def Kept (c : Session) : Prop := ∀ node ∈ c.listPubWaitAck, Whole node.buf

/-- What goes out while a client is connected: whole packets, but for
acknowledgements that are cut short. -/
def Wired (ws : List (List UInt8)) : Prop := ∀ w ∈ ws, Whole w ∨ CutAck w

/-- Nothing has gone out yet, so nothing of it is cut short. -/
theorem wired_nil : Wired [] := fun _ h => absurd h List.not_mem_nil

/-- A client without a packet that waits keeps nothing but whole packets. -/
theorem kept_of_nil {c : Session} (h : c.listPubWaitAck = []) : Kept c := by
  rw [Kept, h]
  exact fun _ h => absurd h List.not_mem_nil

/-- What only the making of a connection changes: the CONNECT data and the
times of the tries. -/
def Session.course (c : Session) : ConnectData × UInt32 × UInt32 :=
  (c.connectData, c.reconnectNextTime, c.reconnectTimeIntervalMs)

/-- What a call does that makes no connection: the client may become
disconnected, and while it is not, only whole packets and cut acknowledgements
go out. -/
structure Goes (c c' : Session) : Prop where
  course : c'.course = c.course
  state : c'.clientState = c.clientState ∨ c'.clientState = .disconnected
  nodes : Kept c → Kept c'
  wire : Kept c → c'.clientState = .connected →
    ∃ ws, Wired ws ∧ c'.ipstack = c.ipstack.map (· ++ ws)

/-- A client is only ever disconnected by such a call. -/
theorem Goes.state_eq (h : Goes c c') (hne : c'.clientState ≠ .disconnected) :
    c'.clientState = c.clientState :=
  h.state.resolve_right hne

/-- A client that is connected behind such a call was connected before it. -/
theorem Goes.connected (h : Goes c c') (hstate : c'.clientState = .connected) :
    c.clientState = .connected :=
  (h.state_eq (by rw [hstate]; decide)).symm.trans hstate

/-- Two such calls, one after the other, are one: what they put out is joined.
-/
theorem Goes.trans (h : Goes c c') (h' : Goes c' c'') : Goes c c'' where
  course := h'.course.trans h.course
  state := by
    rcases h'.state with hs | hs
    · rw [hs]
      exact h.state
    · exact Or.inr hs
  nodes hkept := h'.nodes (h.nodes hkept)
  wire hkept hstate := by
    obtain ⟨vs, hvs, hip'⟩ := h'.wire (h.nodes hkept) hstate
    obtain ⟨ws, hws, hip⟩ := h.wire hkept (h'.connected hstate)
    refine ⟨ws ++ vs, fun w hw => (List.mem_append.mp hw).elim (hws w) (hvs w), ?_⟩
    rw [hip', hip, Option.map_map]
    congr 1
    funext l
    exact List.append_assoc l ws vs

/-- A call that puts nothing out and leaves state, packets and data alone is
such a call. -/
theorem Goes.of_eq (hcourse : c'.course = c.course) (hnodes : c'.listPubWaitAck = c.listPubWaitAck)
    (hip : c'.ipstack = c.ipstack) (hstate : c'.clientState = c.clientState) : Goes c c' where
  course := hcourse
  state := Or.inl hstate
  nodes hkept := by rwa [Kept, hnodes]
  wire _ _ := by
    refine ⟨[], wired_nil, ?_⟩
    rw [hip]
    simp

/-- Doing nothing is such a call, with nothing put out. -/
theorem Goes.refl (c : Session) : Goes c c := .of_eq rfl rfl rfl rfl

/-- A call that disconnects the client may put out anything, for nothing is
said of the wire then. -/
theorem Goes.of_lost (hcourse : c'.course = c.course)
    (hnodes : c'.listPubWaitAck = c.listPubWaitAck) (hstate : c'.clientState = .disconnected) :
    Goes c c' where
  course := hcourse
  state := Or.inr hstate
  nodes hkept := by rwa [Kept, hnodes]
  wire _ h := by
    rw [hstate] at h
    cases h

/-- What is put out is written behind the packets of the connection, if there
is one and it is not empty. -/
theorem put_eq (c : Session) (wire : List UInt8) :
    c.put wire =
      { c with ipstack := if wire = [] then c.ipstack else c.ipstack.map (· ++ [wire]) } := by
  rw [Session.put]
  split <;> rfl

/-- Putting a packet out changes nothing of the subscriptions and of the
messages that wait. -/
@[simp] theorem put_toSubscriber (c : Session) (wire : List UInt8) :
    (c.put wire).toSubscriber = c.toSubscriber := by rw [put_eq]

/-- Putting a packet out leaves the number of unanswered pings alone. -/
@[simp] theorem put_keepaliveProbes (c : Session) (wire : List UInt8) :
    (c.put wire).keepaliveProbes = c.keepaliveProbes := by rw [put_eq]

/-- Putting a packet out leaves the CONNECT data and the times of the tries
alone. -/
@[simp] theorem put_course (c : Session) (wire : List UInt8) :
    (c.put wire).course = c.course := by rw [put_eq]; rfl

/-- A packet that is not empty is the last one of the connection then. -/
theorem put_ipstack (c : Session) (hne : wire ≠ []) :
    (c.put wire).ipstack = c.ipstack.map (· ++ [wire]) := by
  rw [Session.put, if_neg hne]

/-- Putting out nothing, a whole packet or a cut acknowledgement is such a
call. -/
theorem Goes.put (c : Session) (h : wire = [] ∨ Whole wire ∨ CutAck wire) :
    Goes c (c.put wire) := by
  rw [Session.put]
  split
  · exact .refl c
  · rename_i hne
    refine ⟨rfl, Or.inl rfl, id, fun _ _ => ⟨[wire], fun w hw => ?_, rfl⟩⟩
    obtain rfl := List.mem_singleton.mp hw
    exact h.resolve_left hne

/-- Another packet, where the client is disconnected by the network. -/
theorem Sends.goes {r : ℤ × Session} (hwhole : Whole packet) (h : Sends packet c r) :
    Goes c (if r.1 = networkError then r.2.setClientState .disconnected else r.2) := by
  rcases h with ⟨rfl, -⟩ | ⟨wire, -, -, rfl⟩ | ⟨-, hrc, hsame⟩
  · rw [if_neg (show successReturn ≠ networkError by decide)]
    exact .put c (Or.inr (Or.inl hwhole))
  · rw [if_pos rfl]
    refine .of_lost (put_course c wire) ?_ rfl
    show (c.put wire).toSubscriber.listPubWaitAck = _
    rw [put_toSubscriber]
  · rw [if_neg hrc, hsame]
    exact .refl c

/-- The ping that is due is a whole packet, or the client is disconnected. -/
theorem keepaliveSub_goes (k : Keeping) (c : Session) : Goes c (keepaliveSub k c).2 := by
  rw [keepaliveSub]
  split
  · exact .refl c
  split
  · exact .refl c
  set c₁ : Session :=
    { c with
      nextPingTime := timeCountdownMs k.pingNext
        (c.connectData.keepAliveInterval.toUInt32 * 1000) }
  have hnext : Goes c c₁ := .of_eq rfl rfl rfl rfl
  have hgoes := (mqttKeepalive_sends k.ping c₁).goes ⟨_, [], show 0 < 128 ^ 4 by decide, rfl⟩
  simp only
  split
  · exact hnext.trans hgoes
  · rename_i hrc
    rw [not_not] at hrc
    rw [hrc, if_neg (show successReturn ≠ networkError by decide)] at hgoes
    exact (hnext.trans hgoes).trans (.of_eq rfl rfl rfl rfl)

/-! ## The calls of the application -/

variable {p : Publishing} {q : Subscribing} {f t u : List UInt8} {m : TopicMsg}

/-- What a publish puts out and what it enters are whole packets, where the
client stays connected. -/
theorem wrapperMqttPublish_goes (p : Publishing) (c : Client) (t : List UInt8) (m : TopicMsg) :
    let r := wrapperMqttPublish p c t m
    ((∀ node ∈ c.listPubWaitAck, Whole node.buf) →
        ∀ node ∈ r.2.2.1.listPubWaitAck, Whole node.buf) ∧
      (r.2.2.1.clientState = c.clientState ∨ r.2.2.1.clientState = .disconnected) ∧
      (r.2.2.1.clientState = .connected → r.2.2.2 = [] ∨ Whole r.2.2.2) := by
  simp only
  by_cases h : checkTopic .name t = true ∧ c.clientState = .connected ∧ m.qos ≠ 2
  · obtain ⟨htopic, hstate, hqos⟩ := h
    have hnodes : (c.numbering m).listPubWaitAck = c.listPubWaitAck := by
      rw [Client.numbering]
      split <;> rfl
    have hsame : (c.numbering m).clientState = c.clientState := by
      rw [Client.numbering]
      split <;> rfl
    rw [wrapperMqttPublish_eq htopic hstate hqos]
    simp only
    rcases mqttPublish_spec p (c.numbering m) t (m.numbered c) with
      ⟨hrc, hclient, hwire, -⟩ | ⟨hrc, hclient, -, -, hnone⟩
    · have hwhole : Whole ((m.numbered c).packet t) :=
        whole_publish ((mqttPublish_success_iff p _ t (m.numbered c)).mp hrc).2.1
      rw [if_neg (not_not.mpr hrc)]
      refine ⟨fun hkept node hnode => ?_, Or.inl ?_, fun _ => Or.inr (hwire ▸ hwhole)⟩
      · rw [hclient, Client.accept] at hnode
        split at hnode
        · rcases List.mem_append.mp hnode with hnode | hnode
          · exact hkept node (hnodes ▸ hnode)
          · obtain rfl := List.mem_singleton.mp hnode
            exact hwhole
        · exact hkept node (hnodes ▸ hnode)
      · rw [hclient, Client.accept]
        split
        · exact hsame
        · exact hsame
    · rw [if_pos (ne_of_lt hrc)]
      simp only [hclient, Client.failed]
      split
      · exact ⟨fun hkept node hnode => hkept node (hnodes ▸ hnode), Or.inr rfl, fun h => by cases h⟩
      · rename_i hnet
        exact ⟨fun hkept node hnode => hkept node (hnodes ▸ hnode), Or.inl hsame,
          fun _ => Or.inl (hnone hnet)⟩
  · obtain ⟨-, hclient, hwire⟩ := wrapperMqttPublish_refused (p := p) h
    rw [hclient, hwire]
    split
    · exact ⟨id, Or.inl rfl, fun _ => Or.inl rfl⟩
    · exact ⟨id, Or.inl rfl, fun _ => Or.inl rfl⟩

/-- What a subscription puts out is a whole packet, where the client stays
connected, and it enters no message. -/
theorem wrapperMqttSubscribe_goes (q : Subscribing) (c : Subscriber) (f : List UInt8)
    (qos : UInt8) (topicHandleFunc : Option ℕ) (pcontext : ℕ) :
    let r := wrapperMqttSubscribe q c f qos topicHandleFunc pcontext
    r.2.1.listPubWaitAck = c.listPubWaitAck ∧
      (r.2.1.clientState = c.clientState ∨ r.2.1.clientState = .disconnected) ∧
      (r.2.1.clientState = .connected → r.2.2 = [] ∨ Whole r.2.2) := by
  simp only
  rcases topicHandleFunc with - | hFp
  · exact ⟨rfl, Or.inl rfl, fun _ => Or.inl rfl⟩
  rw [wrapperMqttSubscribe]
  split
  · exact ⟨rfl, Or.inl rfl, fun _ => Or.inl rfl⟩
  simp only
  split
  · exact ⟨rfl, Or.inl rfl, fun _ => Or.inl rfl⟩
  split
  · exact ⟨rfl, Or.inl rfl, fun _ => Or.inl rfl⟩
  rename_i hcheck
  have hlen := ((checkTopic_iff .filter f).mp (Bool.eq_true_of_not_eq_false hcheck)).2.1
  obtain ⟨hsent, hclient, -, -⟩ := mqttSubscribe_spec q
    { c with toClient := (getNextPacketid c.toClient).2 } f qos (getNextPacketid c.toClient).1
    ⟨hFp, pcontext⟩
  have hnodes := congrArg Client.listPubWaitAck hclient
  have hstates := congrArg Client.clientState hclient
  rcases hsent with ⟨hrc, hwire⟩ | ⟨hrc, -, -, hnone⟩
  · rw [if_neg (not_not.mpr hrc)]
    exact ⟨hnodes, Or.inl hstates, fun _ => Or.inr (hwire ▸ whole_subscribe hlen)⟩
  · rw [if_pos (ne_of_lt hrc)]
    split
    · exact ⟨hnodes, Or.inr rfl, fun h => by cases h⟩
    · rename_i hnet
      exact ⟨hnodes, Or.inl hstates, fun _ => Or.inl (hnone hnet)⟩

theorem wrapperMqttUnsubscribe_goes (q : Subscribing) (c : Subscriber) (u : List UInt8) :
    let r := wrapperMqttUnsubscribe q c u
    r.2.1.listPubWaitAck = c.listPubWaitAck ∧
      (r.2.1.clientState = c.clientState ∨ r.2.1.clientState = .disconnected) ∧
      (r.2.1.clientState = .connected → r.2.2 = [] ∨ Whole r.2.2) := by
  simp only
  rw [wrapperMqttUnsubscribe]
  simp only
  split
  · exact ⟨rfl, Or.inl rfl, fun _ => Or.inl rfl⟩
  rename_i hcheck
  split
  · exact ⟨rfl, Or.inl rfl, fun _ => Or.inl rfl⟩
  have hlen := ((checkTopic_iff .filter u).mp (Bool.eq_true_of_not_eq_false hcheck)).2.1
  obtain ⟨hsent, hclient, -, -⟩ := mqttUnsubscribe_spec q
    { c with toClient := (getNextPacketid c.toClient).2 } u (getNextPacketid c.toClient).1
  have hnodes := congrArg Client.listPubWaitAck hclient
  have hstates := congrArg Client.clientState hclient
  rcases hsent with ⟨hrc, hwire⟩ | ⟨hrc, -, -, hnone⟩
  · rw [if_neg (not_not.mpr hrc)]
    exact ⟨hnodes, Or.inl hstates, fun _ => Or.inr (hwire ▸ whole_unsubscribe hlen)⟩
  · rw [if_pos (ne_of_lt hrc)]
    split
    · exact ⟨hnodes, Or.inr rfl, fun h => by cases h⟩
    · rename_i hnet
      exact ⟨hnodes, Or.inl hstates, fun _ => Or.inl (hnone hnet)⟩

/-- A call that leaves the connection as it is and puts out what it sends. -/
theorem Goes.call {s : Subscriber}
    (hnodes : Kept c → ∀ node ∈ s.listPubWaitAck, Whole node.buf)
    (hstate : s.clientState = c.clientState ∨ s.clientState = .disconnected)
    (hwire : s.clientState = .connected → wire = [] ∨ Whole wire) :
    Goes c (({ c with toSubscriber := s } : Session).put wire) := by
  rw [put_eq]
  refine ⟨rfl, hstate, hnodes, fun _ hconnected => ?_⟩
  split
  · exact ⟨[], wired_nil, by simp⟩
  · rename_i hne
    refine ⟨[wire], fun w hw => ?_, rfl⟩
    obtain rfl := List.mem_singleton.mp hw
    exact Or.inl ((hwire hconnected).resolve_left hne)

/-- A publish over the connection of a client makes no connection and cuts no
packet short. -/
theorem publish_goes (c : Session) (p : Publishing) (t : List UInt8) (m : TopicMsg) :
    Goes c (c.publish p t m).2 := by
  obtain ⟨hnodes, hstate, hwire⟩ :=
    wrapperMqttPublish_goes { p with writes := c.writes p.writes } c.toClient t m
  exact Goes.call (s := { c.toSubscriber with toClient := _ }) hnodes hstate hwire

/-- Nor does a subscription over the connection of a client. -/
theorem subscribe_goes (c : Session) (q : Subscribing) (f : List UInt8) (qos : UInt8)
    (topicHandleFunc : Option ℕ) (pcontext : ℕ) :
    Goes c (c.subscribe q f qos topicHandleFunc pcontext).2 := by
  obtain ⟨hnodes, hstate, hwire⟩ := wrapperMqttSubscribe_goes
    { q with writes := c.writes q.writes } c.toSubscriber f qos topicHandleFunc pcontext
  exact Goes.call (fun hkept node hnode => hkept node (hnodes ▸ hnode)) hstate hwire

theorem unsubscribe_goes (c : Session) (q : Subscribing) (u : List UInt8) :
    Goes c (c.unsubscribe q u).2 := by
  obtain ⟨hnodes, hstate, hwire⟩ := wrapperMqttUnsubscribe_goes
    { q with writes := c.writes q.writes } c.toSubscriber u
  exact Goes.call (fun hkept node hnode => hkept node (hnodes ▸ hnode)) hstate hwire

/-! ## A round -/

/-- Several packets, one after the other, are written behind those of the
connection in their order. -/
theorem foldl_put (c : Session) (wires : List (PubInfo × List UInt8)) :
    ∃ ip, wires.foldl (fun c x => c.put x.2) c = { c with ipstack := ip } ∧
      ((∀ x ∈ wires, x.2 ≠ []) → ip = c.ipstack.map (· ++ wires.map Prod.snd)) := by
  induction wires generalizing c with
  | nil => exact ⟨c.ipstack, rfl, fun _ => by simp⟩
  | cons x wires ih =>
      obtain ⟨ip, hfold, hwire⟩ := ih (c.put x.2)
      refine ⟨ip, by rw [List.foldl_cons, hfold, put_eq], fun hne => ?_⟩
      rw [hwire fun y hy => hne y (List.mem_cons_of_mem x hy),
        put_ipstack c (hne x List.mem_cons_self), Option.map_map]
      congr 1
      funext l
      exact List.append_assoc l [x.2] (wires.map Prod.snd)

/-- What sending again meets over the connection of a client: its state and
what the network takes. -/
def Session.visits (c : Session) (visit : ℕ → Visit) (k : ℕ) : Visit :=
  { visit k with state := c.clientState, writes := c.writes (visit k).writes }

/-- What sending again leaves of a client: other nodes and a longer
connection, and the rest as it was. -/
theorem pubInfoProc_eq (c : Session) (visit : ℕ → Visit) :
    ∃ ip, c.pubInfoProc visit =
        { c with toClient := (Mqtt.pubInfoProc c.toClient (c.visits visit)).1, ipstack := ip } ∧
      ((∀ x ∈ (Mqtt.pubInfoProc c.toClient (c.visits visit)).2, x.2 ≠ []) →
        ip = c.ipstack.map
          (· ++ (Mqtt.pubInfoProc c.toClient (c.visits visit)).2.map Prod.snd)) :=
  foldl_put ({ c with toClient := (Mqtt.pubInfoProc c.toClient (c.visits visit)).1 } : Session)
    (Mqtt.pubInfoProc c.toClient (c.visits visit)).2

/-- Sending again keeps to whole packets, or the client is disconnected. -/
theorem pubInfoProc_goes (c : Session) (visit : ℕ → Visit) : Goes c (c.pubInfoProc visit) := by
  obtain ⟨ip, heq, hwire⟩ := pubInfoProc_eq c visit
  obtain ⟨hleft, hagain⟩ :=
    pubInfoProcLoop_bufs c.requestTimeoutMs c.listPubWaitAck (c.visits visit)
  rw [heq]
  have hstate : (Mqtt.pubInfoProc c.toClient (c.visits visit)).1.clientState =
      if (pubInfoProcLoop c.requestTimeoutMs c.listPubWaitAck (c.visits visit)).2.2 then
        .disconnected
      else c.clientState := rfl
  refine ⟨rfl, ?_, fun hkept node hnode => ?_, fun hkept hconnected => ?_⟩
  · show (Mqtt.pubInfoProc c.toClient (c.visits visit)).1.clientState = c.clientState ∨
      (Mqtt.pubInfoProc c.toClient (c.visits visit)).1.clientState = .disconnected
    rw [hstate]
    split
    · exact Or.inr rfl
    · exact Or.inl rfl
  · obtain ⟨n, hn, hbuf⟩ := hleft node hnode
    rw [hbuf]
    exact hkept n hn
  · have hfailed :
        (pubInfoProcLoop c.requestTimeoutMs c.listPubWaitAck (c.visits visit)).2.2 = false := by
      by_contra hfailed
      rw [if_pos (Bool.eq_true_of_not_eq_false hfailed)] at hstate
      exact absurd (hstate.symm.trans hconnected) (by decide)
    have hwhole : ∀ x ∈ (Mqtt.pubInfoProc c.toClient (c.visits visit)).2, Whole x.2 := by
      intro x hx
      obtain ⟨⟨n, hn, hbuf⟩, hall⟩ := hagain x hx
      rw [hall hfailed, hbuf]
      exact hkept n hn
    refine ⟨_, fun w hw => ?_, hwire fun x hx => whole_ne_nil (hwhole x hx)⟩
    obtain ⟨x, hx, rfl⟩ := List.mem_map.mp hw
    exact Or.inl (hwhole x hx)

/-- What is done with a packet that is read: the client stays as connected
as it is, and only what the packet acknowledges is masked. -/
structure Takes (acked : Option UInt16) (c c' : Session) : Prop where
  goes : Goes c c'
  state : c'.clientState = c.clientState
  probes : c'.keepaliveProbes = c.keepaliveProbes
  nodes : c'.listPubWaitAck =
    (acked.elim c.toClient (maskPubInfoFrom c.toClient)).listPubWaitAck

/-- Doing nothing takes no message away and puts nothing out. -/
theorem Takes.refl (c : Session) : Takes none c c := ⟨.refl c, rfl, rfl, rfl⟩

/-- Putting out nothing, a whole packet or a cut acknowledgement takes no
message away. -/
theorem Takes.put (h : wire = [] ∨ Whole wire ∨ CutAck wire) : Takes none c (c.put wire) :=
  ⟨.put c h, by rw [put_eq], put_keepaliveProbes c wire, by rw [put_eq]; rfl⟩

theorem Takes.nodes_nil {acked : Option UInt16} (h : Takes acked c c')
    (hnil : c.listPubWaitAck = []) : c'.listPubWaitAck = [] := by
  rw [h.nodes]
  cases acked with
  | none => exact hnil
  | some id => exact List.map_eq_nil_iff.mpr hnil

/-- An acknowledgement takes no message away, whatever becomes of it: even one
that is cut short leaves the client connected. -/
theorem Sends.takes_ack {packetid : ℕ} {r : ℤ × Session} (h : Sends (ackPacket packetid) c r) :
    Takes none c r.2 := by
  rcases h with ⟨rfl, -⟩ | ⟨wire, hbegin, hne, rfl⟩ | ⟨-, -, hsame⟩
  · exact .put (Or.inr (Or.inl (whole_ack packetid)))
  · exact .put (Or.inr (Or.inr ⟨packetid, hbegin, hne⟩))
  · rw [hsame]
    exact .refl c

/-- A message that is read is answered or not, and takes none of those that
wait away. -/
theorem handleRecvPublishAck_takes (r : Round) (c : Session) (mem : List UInt8) :
    Takes none c (handleRecvPublishAck r c mem).2 := by
  rw [handleRecvPublishAck]
  split
  · exact .refl c
  simp only
  split
  · exact .refl c
  split
  · exact (mqttPuback_sends r.ack c _ _).takes_ack
  split
  · exact (mqttPuback_sends r.ack c _ _).takes_ack
  · exact .refl c

/-- A PUBACK takes the messages of its identifier away, and nothing goes out.
-/
theorem mask_takes (c : Session) (mem : List UInt8) (mypacketid : UInt16) :
    Takes (pubackId mem mypacketid) c
      { c with toClient := (handleRecvPuback c.toClient mem mypacketid).2 } := by
  rw [handleRecvPuback]
  rcases pubackId mem mypacketid with - | packetid
  · exact .refl c
  · refine ⟨⟨rfl, Or.inl rfl, fun hkept node hnode => ?_, fun _ _ => ⟨[], wired_nil, by simp⟩⟩,
      rfl, rfl, rfl⟩
    obtain ⟨n, hn, rfl⟩ := List.mem_map.mp hnode
    split
    · exact hkept n hn
    · exact hkept n hn

/-- Without a connection reading is a network error, where it would have
come to reading at all. -/
theorem readPacket_cases (c : Session) (r : Reading) :
    c.readPacket r = .failed networkError ∨ c.readPacket r = Mqtt.readPacket r.incoming := by
  by_cases hip : c.ipstack = none
  · rw [Session.readPacket, Session.net, if_pos hip, Mqtt.readPacket, Mqtt.readPacket]
    by_cases hgranted : r.incoming.headGranted = false
    · rw [if_pos hgranted, if_pos hgranted]
      exact Or.inr rfl
    · rw [if_neg hgranted]
      exact Or.inl rfl
  · rw [Session.readPacket, Session.net, if_neg hip]
    exact Or.inr rfl

/-- Over a connection that is made, a packet is read from what the network
delivers. -/
theorem readPacket_eq (r : Reading) (hip : c.ipstack ≠ none) :
    c.readPacket r = Mqtt.readPacket r.incoming := by
  rw [Session.readPacket, Session.net, if_neg hip]

/-- The client that a round reads with: disconnected where too many pings
are unanswered. -/
def Session.probed (c : Session) : Session :=
  if keepaliveProbeMax < c.keepaliveProbes then
    { c.setClientState .disconnected with keepaliveProbes := 0 }
  else c

/-- What a packet that is read in a round acknowledges. -/
def Round.acked (r : Round) (p : Received) : Option UInt16 :=
  if p.type = pubackType then pubackId (p.buf.bytes ++ r.reading.behind) r.mypacketid else none

/-- What a round takes for `MQTT_CPT_RESERVED`: that nothing has come, that
a packet was too long for the buffer, or a packet of that very type. -/
def Outcome.Passes : Outcome → Prop
  | .failed _ => False
  | .reserved => True
  | .packet p => p.type = reservedType

/-- What a round of a connected client comes to: reading fails, nothing is
read that counts, or a packet is, which is then taken as its type asks. -/
theorem cycle_cases (r : Round) (c : Session) (hstate : c.clientState = .connected) :
    (∃ rc, c.probed.readPacket r.reading = .failed rc ∧ cycle r c =
        (networkError,
          if rc = networkError then c.probed.setClientState .disconnected else c.probed)) ∨
      ((c.probed.readPacket r.reading).Passes ∧ cycle r c = (successReturn, c.probed)) ∨
        ∃ p, c.probed.readPacket r.reading = .packet p ∧ p.type ≠ reservedType ∧
          Takes (r.acked p) { c.probed with keepaliveProbes := 0 } (cycle r c).2 := by
  rw [cycle, if_neg (not_not.mpr hstate)]
  simp only
  rw [← Session.probed]
  rcases c.probed.readPacket r.reading with rc | - | p
  · exact Or.inl ⟨rc, rfl, rfl⟩
  · exact Or.inr (Or.inl ⟨trivial, rfl⟩)
  simp only
  by_cases hreserved : p.type = reservedType
  · rw [if_pos hreserved]
    exact Or.inr (Or.inl ⟨hreserved, rfl⟩)
  rw [if_neg hreserved]
  refine Or.inr (Or.inr ⟨p, rfl, hreserved, ?_⟩)
  by_cases hpuback : p.type = pubackType
  · have hconnack : p.type ≠ connackType := by
      rw [hpuback]
      decide
    rw [Round.acked, if_pos hpuback, if_neg hconnack, if_pos hpuback]
    exact mask_takes _ _ r.mypacketid
  rw [Round.acked, if_neg hpuback]
  split
  · exact .refl _
  split
  · exact .refl _
  split
  · exact handleRecvPublishAck_takes r _ _
  split
  · exact .refl _
  split
  · exact .refl _
  · exact .refl _

/-- Finding too many pings unanswered disconnects the client and puts nothing
out. -/
theorem probed_goes (c : Session) : Goes c c.probed := by
  rw [Session.probed]
  split
  · exact .of_lost rfl rfl rfl
  · exact .refl c

/-- One round of a yield, whatever it reads, makes no connection and cuts only
acknowledgements short. -/
theorem cycle_goes (r : Round) (c : Session) : Goes c (cycle r c).2 := by
  by_cases hstate : c.clientState = .connected
  · refine (probed_goes c).trans ?_
    rcases cycle_cases r c hstate with ⟨rc, -, h⟩ | ⟨-, h⟩ | ⟨p, -, -, h⟩
    · rw [h]
      simp only
      split
      · exact .of_lost rfl rfl rfl
      · exact .refl _
    · rw [h]
      exact .refl _
    · have hheard : Goes c.probed { c.probed with keepaliveProbes := 0 } := .of_eq rfl rfl rfl rfl
      exact hheard.trans h.goes
  · rw [cycle, if_pos hstate]
    exact .refl c

/-- Several rounds of a yield do, by induction over the rounds. -/
theorem mqttCycle_goes (c : Session) (rounds : List Round) : Goes c (mqttCycle c rounds) := by
  induction rounds generalizing c with
  | nil => exact .refl c
  | cons r rounds ih =>
      rw [mqttCycle]
      simp only
      refine (cycle_goes r c).trans ?_
      split
      · exact (pubInfoProc_goes _ r.visit).trans (ih _)
      · exact ih _

/-! ## A connection is made -/

/-- The CONNECT data with another keep-alive interval, which each try to
connect sets anew. -/
def ConnectData.every (d : ConnectData) (k : UInt16) : ConnectData :=
  { d with keepAliveInterval := k }

/-- The interval has no part in what makes the data plain. -/
theorem ConnectData.Plain.every {d : ConnectData} (h : d.Plain) (k : UInt16) :
    (d.every k).Plain :=
  ⟨h.version, h.clientID, h.topicName, h.message, h.username, h.password⟩

/-- What making a connection comes to: where it succeeds, the new connection
has carried a CONNECT and nothing else. -/
structure Makes (d : ConnectData) (c : Session) (r : ℤ × Session) : Prop where
  data : ∃ k, r.2.connectData = d.every k
  nodes : r.2.listPubWaitAck = c.listPubWaitAck
  made : r.1 = successReturn → r.2.clientState = .connected ∧
    ∃ k, Whole (connectPacket (d.every k)) ∧ r.2.ipstack = some [connectPacket (d.every k)]
  probes : r.1 = successReturn → r.2.keepaliveProbes = 0
  failed : r.1 ≠ successReturn → r.2.clientState = c.clientState
  interval : r.2.reconnectTimeIntervalMs = c.reconnectTimeIntervalMs

/-- One try, whose CONNECT goes out over a new connection. -/
theorem mqttConnect_fresh {d : ConnectData} (hd : d.Plain) (s : Send) (c : Session) (k : UInt16)
    (hdata : c.connectData = d.every k) (hip : c.ipstack = none ∨ c.ipstack = some []) :
    (mqttConnect s c).2.toSubscriber = c.toSubscriber ∧
      (mqttConnect s c).2.course = c.course ∧
      ((mqttConnect s c).1 = successReturn → Whole (connectPacket (d.every k)) ∧
        (mqttConnect s c).2.ipstack = some [connectPacket (d.every k)]) := by
  obtain ⟨hsends, hwhole⟩ := mqttConnect_sends s c (hdata ▸ hd.every k)
  rw [hdata] at hsends hwhole
  refine ⟨?_, ?_, fun hrc => ⟨hwhole hrc, ?_⟩⟩
  · rcases hsends with ⟨h, -⟩ | ⟨wire, -, -, h⟩ | ⟨-, -, h⟩
    · rw [h, put_toSubscriber]
    · rw [h, put_toSubscriber]
    · rw [h]
  · rcases hsends with ⟨h, -⟩ | ⟨wire, -, -, h⟩ | ⟨-, -, h⟩
    · rw [h, put_course]
    · rw [h, put_course]
    · rw [h]
  · rcases hsends with ⟨h, hsome⟩ | ⟨wire, -, -, h⟩ | ⟨hneg, -, -⟩
    · rw [h, Session.put, if_neg (whole_ne_nil (hwhole hrc)), hip.resolve_left hsome]
      rfl
    · rw [h] at hrc
      exact absurd hrc (show networkError ≠ successReturn by decide)
    · rw [hrc] at hneg
      exact absurd hneg (by decide)

/-- The tries of one call, by induction over them: each sends a CONNECT of its
own over a connection of its own. -/
theorem mqttConnectTries_makes {d : ConnectData} (hd : d.Plain) (user : UInt16) (n : ℕ)
    (tries : ℕ → Try) (c : Session) (k : UInt16) (hdata : c.connectData = d.every k)
    (hip : c.ipstack = none ∨ c.ipstack = some []) :
    Makes d c (mqttConnectTries user c n tries) := by
  induction n generalizing c k tries with
  | zero =>
      have hfailed : connectError ≠ successReturn := by decide
      exact ⟨⟨k, hdata⟩, rfl, fun h => absurd h hfailed, fun h => absurd h hfailed, fun _ => rfl,
        rfl⟩
  | succ n ih =>
      obtain ⟨hsub, hcourse, hfresh⟩ := mqttConnect_fresh hd (tries 0).connect c k hdata hip
      have hconnect : (mqttConnect (tries 0).connect c).2.connectData = d.every k :=
        (congrArg Prod.fst hcourse).trans hdata
      have hinterval := congrArg (fun x => x.2.2) hcourse
      have hevery : ({ (mqttConnect (tries 0).connect c).2.connectData with
          keepAliveInterval := user } : ConnectData) = d.every user := by
        rw [hconnect]
        rfl
      have hnodes := congrArg (fun s => s.toClient.listPubWaitAck) hsub
      have hstate := congrArg (fun s => s.toClient.clientState) hsub
      rw [mqttConnectTries]
      simp only
      split
      · rename_i hrc
        exact ⟨⟨user, hevery⟩, hnodes, fun h => absurd h hrc, fun h => absurd h hrc,
          fun _ => hstate, hinterval⟩
      rename_i hrc
      rw [not_not] at hrc
      split
      · have hfailed : connectError ≠ successReturn := by decide
        exact ⟨⟨user, hevery⟩, hnodes, fun h => absurd h hfailed, fun h => absurd h hfailed,
          fun _ => hstate, hinterval⟩
      split
      · set c' : Session := (Session.netConnect (Session.netDisconnect
          { (mqttConnect (tries 0).connect c).2 with
            connectData.keepAliveInterval := user }) (tries 0).established).2 with hc'
        have hip' : c'.ipstack = none ∨ c'.ipstack = some [] := by
          rw [hc', Session.netConnect]
          simp only
          split
          · exact Or.inr rfl
          · exact Or.inl rfl
        have hmakes := ih (fun i => tries (i + 1)) c' user hevery hip'
        exact ⟨hmakes.data, hmakes.nodes.trans hnodes, hmakes.made, hmakes.probes,
          fun h => (hmakes.failed h).trans hstate, hmakes.interval.trans hinterval⟩
      · exact ⟨⟨user, hevery⟩, hnodes, fun _ => ⟨rfl, k, hfresh hrc⟩, fun _ => rfl,
          fun h => absurd rfl h, hinterval⟩

/-- The loop ends with its first pass: `connect_tcp` reports no failure. -/
theorem establish_succ (c : Session) (n : ℕ) (established : ℕ → Bool) :
    establish c (n + 1) established = (c.netConnect (established 0)).2 := by
  rw [establish]
  exact if_neg fun h => h rfl

/-- Only the connection changes when it is established, to none or to one that
has carried nothing. -/
theorem establish_spec (c : Session) (n : ℕ) (established : ℕ → Bool)
    (hip : c.ipstack = none ∨ c.ipstack = some []) :
    (establish c n established).toSubscriber = c.toSubscriber ∧
      (establish c n established).course = c.course ∧
      ((establish c n established).ipstack = none ∨
        (establish c n established).ipstack = some []) := by
  rcases n with - | n
  · exact ⟨rfl, rfl, hip⟩
  · rw [establish_succ]
    refine ⟨rfl, rfl, ?_⟩
    show (if established 0 then some [] else none) = none ∨ _ = some []
    cases established 0
    · exact Or.inl rfl
    · exact Or.inr rfl

/-- A call that connects leaves a connection with a CONNECT on it and a client
that is connected, or neither. -/
theorem wrapperMqttConnect_makes {d : ConnectData} (hd : d.Plain) (e : Connecting) (c : Session)
    (k : UInt16) (hdata : c.connectData = d.every k)
    (hip : c.ipstack = none ∨ c.ipstack = some []) : Makes d c (wrapperMqttConnect e c) := by
  obtain ⟨hsub, hcourse, hip'⟩ := establish_spec c 3 e.established hip
  have hconnect : (establish c 3 e.established).connectData = c.connectData :=
    congrArg Prod.fst hcourse
  have hinterval := congrArg (fun x => x.2.2) hcourse
  have hmakes := mqttConnectTries_makes hd
    (establish c 3 e.established).connectData.keepAliveInterval retryTimes e.tries
    { establish c 3 e.established with connectData.keepAliveInterval := keepaliveIntervalMax }
    keepaliveIntervalMax (by
      show (establish c 3 e.established).connectData.every keepaliveIntervalMax = _
      rw [hconnect, hdata]
      rfl) hip'
  have hnodes := congrArg (fun s => s.toClient.listPubWaitAck) hsub
  have hstate := congrArg (fun s => s.toClient.clientState) hsub
  exact ⟨hmakes.data, hmakes.nodes.trans hnodes, hmakes.made, hmakes.probes,
    fun h => (hmakes.failed h).trans hstate, hmakes.interval.trans hinterval⟩

/-! ## Runs -/

/-- What holds of a client and its connection between two calls. -/
structure Framed (d : ConnectData) (c : Session) : Prop where
  data : ∃ k, c.connectData = d.every k
  kept : Kept c
  wire : c.clientState = .connected → ∃ k ws, Whole (connectPacket (d.every k)) ∧ Wired ws ∧
    c.ipstack = some (connectPacket (d.every k) :: ws)

/-- A call that makes no connection puts whole packets behind those of the
connection, or loses it. -/
theorem Framed.goes {d : ConnectData} (h : Framed d c) (hgoes : Goes c c') : Framed d c' where
  data := by
    obtain ⟨k, hdata⟩ := h.data
    exact ⟨k, (congrArg Prod.fst hgoes.course).trans hdata⟩
  kept := hgoes.nodes h.kept
  wire hstate := by
    obtain ⟨vs, hvs, hip⟩ := hgoes.wire h.kept hstate
    obtain ⟨k, ws, hwhole, hws, hip'⟩ := h.wire (hgoes.connected hstate)
    refine ⟨k, ws ++ vs, hwhole, fun w hw => (List.mem_append.mp hw).elim (hws w) (hvs w), ?_⟩
    rw [hip, hip']
    rfl

/-- It is about the CONNECT data, the packets that wait and the connection. -/
theorem Framed.of_eq {d : ConnectData} (h : Framed d c) (hdata : c'.connectData = c.connectData)
    (hnodes : c'.listPubWaitAck = c.listPubWaitAck)
    (hwire : c'.clientState = .connected → c.clientState = .connected ∧ c'.ipstack = c.ipstack) :
    Framed d c' where
  data := by
    rw [hdata]
    exact h.data
  kept := by
    rw [Kept, hnodes]
    exact h.kept
  wire hstate := by
    rw [(hwire hstate).2]
    exact h.wire (hwire hstate).1

/-- A connection that is made, or is not by a client that is not connected. -/
theorem Framed.makes {d : ConnectData} {r : ℤ × Session} (hkept : Kept c)
    (hstate : c.clientState ≠ .connected) (hmakes : Makes d c r) : Framed d r.2 where
  data := hmakes.data
  kept := by rwa [Kept, hmakes.nodes]
  wire hconnected := by
    by_cases hrc : r.1 = successReturn
    · obtain ⟨-, k, hwhole, hip⟩ := hmakes.made hrc
      exact ⟨k, [], hwhole, wired_nil, hip⟩
    · rw [hmakes.failed hrc] at hconnected
      exact absurd hconnected hstate

/-- A try to reconnect keeps to it, for it starts a connection of its own with
a CONNECT. -/
theorem handleReconnect_framed {d : ConnectData} (hd : d.Plain) (k : Keeping)
    (h : Framed d c) (hstate : c.clientState ≠ .connected) :
    Framed d (handleReconnect k c).2 := by
  rw [handleReconnect]
  split
  · exact h
  obtain ⟨i, hdata⟩ := h.data
  have hmakes := wrapperMqttConnect_makes hd k.connecting c.netDisconnect i hdata (Or.inl rfl)
  have hframed := Framed.makes (c := c.netDisconnect) h.kept hstate hmakes
  simp only
  rw [attemptReconnect]
  split
  · rename_i hrc
    obtain ⟨-, hwire⟩ := hmakes.made hrc
    obtain ⟨j, hwhole, hip⟩ := hwire
    exact ⟨hframed.data, hframed.kept, fun _ => ⟨j, [], hwhole, wired_nil, hip⟩⟩
  split
  · exact hframed
  · exact hframed.of_eq rfl rfl fun h => ⟨h, rfl⟩

/-- The keep-alive of a yield keeps to it, whether it pings, finds the
connection lost or reconnects. -/
theorem keepalive_framed {d : ConnectData} (hd : d.Plain) (k : Keeping) (h : Framed d c) :
    Framed d (keepalive k c) := by
  have hsub := h.goes (keepaliveSub_goes k c)
  rw [keepalive]
  simp only
  split
  · rename_i hstate
    have hframed := handleReconnect_framed hd k hsub (by
      rcases hstate with hs | hs
      · rw [hs]
        decide
      · rw [hs]
        decide)
    split
    · exact hframed.of_eq rfl rfl fun h => ⟨h, rfl⟩
    · exact hframed
  split
  · exact hsub.of_eq rfl rfl fun h => by cases h
  · exact hsub

/-- The client `iotx_mc_init` makes, with its CONNECT data, without a
connection and with nothing to wait for. -/
def mcInit (d : ConnectData) (requestTimeoutMs : UInt32) (handleEvent : Option EventHandle) :
    Session where
  clientState := .initialized
  packetId := 0
  requestTimeoutMs := requestTimeoutMs
  listPubWaitAck := []
  listSubHandle := []
  handleEvent := handleEvent
  connectData := { d with keepAliveInterval := setKeepAlive d.keepAliveInterval }
  keepaliveProbes := 0
  nextPingTime := 0
  reconnectNextTime := 0
  reconnectTimeIntervalMs := reconnectIntervalMinMs
  ipstack := none

/-- What a run of the client comes to: it is connected, and called. -/
inductive Reachable (d : ConnectData) : Session → Prop
  | connect (requestTimeoutMs : UInt32) (handleEvent : Option EventHandle) (e : Connecting) :
      Reachable d (wrapperMqttConnect e (mcInit d requestTimeoutMs handleEvent)).2
  | publish {c : Session} (p : Publishing) (topicName : List UInt8) (topicMsg : TopicMsg) :
      Reachable d c → Reachable d (c.publish p topicName topicMsg).2
  | subscribe {c : Session} (q : Subscribing) (topicFilter : List UInt8) (qos : UInt8)
      (topicHandleFunc : Option ℕ) (pcontext : ℕ) :
      Reachable d c → Reachable d (c.subscribe q topicFilter qos topicHandleFunc pcontext).2
  | unsubscribe {c : Session} (q : Subscribing) (topicFilter : List UInt8) :
      Reachable d c → Reachable d (c.unsubscribe q topicFilter).2
  | yield {c : Session} (k : Keeping) (first : Round) (rounds : List Round) :
      Reachable d c → Reachable d (wrapperMqttYield k first rounds c)

/-- Every client that is reached has a connection of whole packets, by
induction over how it is reached. -/
theorem Reachable.framed {d : ConnectData} (hd : d.Plain) (h : Reachable d c) : Framed d c := by
  induction h with
  | connect requestTimeoutMs handleEvent e =>
      exact Framed.makes (c := mcInit d requestTimeoutMs handleEvent) (kept_of_nil rfl)
        (show ClientState.initialized ≠ .connected by decide)
        (wrapperMqttConnect_makes hd e _ _ rfl (Or.inl rfl))
  | publish p t m _ ih => exact ih.goes (publish_goes _ p t m)
  | subscribe q f qos hFp x _ ih => exact ih.goes (subscribe_goes _ q f qos hFp x)
  | unsubscribe q u _ ih => exact ih.goes (unsubscribe_goes _ q u)
  | yield k first rounds _ ih =>
      exact (keepalive_framed hd k ih).goes (mqttCycle_goes _ (first :: rounds))

/-! ## A connection that is accepted -/

/-- The CONNACK that accepts a client, with the flag that says whether a
session is present. -/
def connack (sessionPresent : UInt8) : List UInt8 :=
  packetBytes (header connackType 0 0 0) [sessionPresent, 0]

/-- A client that reads it has succeeded, whatever the buffer holds behind it.
-/
theorem handleRecvConnack_connack (sessionPresent : UInt8) (more : List UInt8) :
    handleRecvConnack (connack sessionPresent ++ more) = successReturn := by
  have hencode : Varint.encode 2 = [2] := Varint.encode_last (by decide)
  have hdecode := @Varint.decode_encode 2 4 (by decide) (by decide) 1
    ([sessionPresent, 0] ++ more)
  rw [hencode] at hdecode
  have hbytes : connack sessionPresent ++ more =
      header connackType 0 0 0 :: ([2] ++ ([sessionPresent, 0] ++ more)) := by
    rw [connack, packetBytes, show [sessionPresent, 0].length = 2 from rfl, hencode]
    rfl
  rw [handleRecvConnack, deserializeConnack, hbytes, List.headD_cons, List.drop_one, List.tail_cons,
    hdecode, if_neg (by decide)]
  rfl

/-- Where the network makes the connection, takes the CONNECT and brings a
CONNACK that accepts it, the client is connected. -/
theorem wrapperMqttConnect_success {d : ConnectData} (hd : d.Plain) (e : Connecting) (c : Session)
    (k : UInt16) (hdata : c.connectData = d.every k) (hfits : packetLen (connectLength d) ≤ 1024)
    (hestablished : e.established 0 = true) (hgranted : (e.tries 0).connect.bufGranted = true)
    (hwrites : (e.tries 0).connect.writes = [.wrote 1024]) (left : List UInt8)
    (sessionPresent : UInt8)
    (hreading : ((e.tries 0).reading 0).incoming =
      { left := left, net := arrive (connack sessionPresent), headGranted := true,
        packetGranted := true, dropGranted := true }) :
    (wrapperMqttConnect e c).1 = successReturn := by
  set c₁ : Session :=
    { (c.netConnect (e.established 0)).2 with
      connectData.keepAliveInterval := keepaliveIntervalMax }
  have hdata₁ : c₁.connectData = d.every keepaliveIntervalMax := by
    show c.connectData.every keepaliveIntervalMax = _
    rw [hdata]
    rfl
  have hip₁ : c₁.ipstack = some [] := by
    show (if e.established 0 then some [] else none) = some []
    rw [if_pos hestablished]
  obtain ⟨hwhole, hconnect⟩ := mqttConnect_eq (e.tries 0).connect c₁
    (hdata₁ ▸ hd.every _) hgranted (hdata₁ ▸ hfits)
  -- the CONNECT goes out
  have hlen : (connectPacket c₁.connectData).length ≤ 1024 := by
    have hplain : c₁.connectData.Plain := hdata₁ ▸ hd.every _
    have hsame : connectLength c₁.connectData = connectLength d := by rw [hdata₁]; rfl
    have hmax : connectLength d ≤ packetLen (connectLength d) := by
      unfold packetLen
      simp only
      split_ifs <;> omega
    have := length_encode_le_packetLen (show connectLength d < 128 ^ 4 by omega)
    rw [connectPacket, length_packetBytes, length_connectBody hplain, hsame]
    omega
  have hsome₁ : c₁.ipstack ≠ none := hip₁ ▸ Option.some_ne_none _
  have hsent :
      (c₁.sendPacket (connectPacket c₁.connectData) (e.tries 0).connect.writes).1 = true := by
    rw [Session.sendPacket, Session.writes, if_neg hsome₁, hwrites]
    exact sendPacket_whole hlen
  rw [hsent, if_neg (by decide)] at hconnect
  set c₂ := (c₁.sendPacket (connectPacket c₁.connectData) (e.tries 0).connect.writes).2 with hc₂
  have hip₂ : c₂.ipstack ≠ none := by
    rcases sendPacket_cases c₁ (whole_ne_nil hwhole) (e.tries 0).connect.writes with
      ⟨h, -⟩ | ⟨wire, -, -, h⟩
    · rw [hc₂, h, put_ipstack c₁ (whole_ne_nil hwhole), hip₁]
      exact Option.some_ne_none _
    · rw [h] at hsent
      cases hsent
  set c₃ : Session :=
    { c₂ with
      connectData.keepAliveInterval :=
        (c.netConnect (e.established 0)).2.connectData.keepAliveInterval }
  -- and the CONNACK is read
  obtain ⟨pkt, tail, hread, hlaid⟩ := @readPacket_arrive left (header connackType 0 0 0)
    [sessionPresent, 0] (by
      rw [length_packetBytes, show [sessionPresent, 0].length = 2 from rfl,
        Varint.encode_last (show 2 < 128 by decide)]
      exact show 4 ≤ messageMaxlen by decide)
  have hnet : c₃.readPacket ((e.tries 0).reading 0) = .packet pkt := by
    rw [Session.readPacket, Session.net, if_neg hip₂, hreading]
    exact hread
  have hwait : waitConnack c₃ waitConnackMax (e.tries 0).reading = successReturn := by
    rw [waitConnack, hnet]
    simp only
    rw [if_pos (hlaid.type.trans (show headerType (header connackType 0 0 0) = connackType by
      decide)), hlaid.bytes, List.append_assoc]
    exact handleRecvConnack_connack sessionPresent _
  have htry : mqttConnect (e.tries 0).connect c₁ = (successReturn, c₂) := hconnect
  rw [wrapperMqttConnect, establish_succ, mqttConnectWith, mqttConnectTries]
  simp only
  rw [htry]
  simp only
  rw [if_neg (fun h => h rfl), hwait, if_neg (by decide), if_neg (fun h => h rfl)]

/-- A client that has been accepted: one established connection, the CONNECT
taken and the CONNACK read. -/
def accepting : Connecting where
  established := fun _ => true
  tries := fun _ =>
    { connect := ⟨true, [.wrote 1024]⟩
      reading := fun _ => ⟨⟨[], arrive (connack 0), true, true, true⟩, []⟩
      established := true
      now := 0 }
/-- The client behind a call that connects and is accepted. -/
def accepted : Session := (wrapperMqttConnect accepting (mcInit {} 2000 none)).2

/-- The data the client starts with is plain: the version is one of the two,
and no string brings its length. -/
theorem plain_default : ({} : ConnectData).Plain := ⟨Or.inr rfl, rfl, rfl, rfl, rfl, rfl⟩

theorem accepted_connected : accepted.clientState = .connected :=
  ((wrapperMqttConnect_makes plain_default accepting (mcInit {} 2000 none) 30 rfl
    (Or.inl rfl)).made (wrapperMqttConnect_success plain_default accepting _ 30 rfl (by decide) rfl
      rfl rfl [] 0 rfl)).1

/-- What an accepted message has put out is its packet, whole and with the
identifier it has been given. -/
theorem wrapperMqttPublish_wire {c : Client} (h : 0 ≤ (wrapperMqttPublish p c t m).1) :
    (wrapperMqttPublish p c t m).2.2.2 = (m.numbered c).packet t := by
  by_cases hthrough : checkTopic .name t = true ∧ c.clientState = .connected ∧ m.qos ≠ 2
  · obtain ⟨htopic, hstate, hqos⟩ := hthrough
    rw [wrapperMqttPublish_eq htopic hstate hqos] at h ⊢
    simp only at h ⊢
    rcases mqttPublish_spec p (c.numbering m) t (m.numbered c) with
      ⟨hrc, -, hwire, -⟩ | ⟨hrc, -, -, -⟩
    · rw [if_neg (not_not.mpr hrc)]
      exact hwire
    · rw [if_pos (ne_of_lt hrc)] at h
      exact absurd h (not_le.mpr hrc)
  · exact absurd h (not_le.mpr (wrapperMqttPublish_refused hthrough).1)

/-- It goes out over the connection behind what went before. -/
theorem publish_ipstack (hok : 0 ≤ (c.publish p t m).1) :
    (c.publish p t m).2.ipstack = c.ipstack.map (· ++ [(m.numbered c.toClient).packet t]) := by
  have hpacket : (m.numbered c.toClient).packet t ≠ [] := List.cons_ne_nil _ _
  have hwire := wrapperMqttPublish_wire (p := { p with writes := c.writes p.writes }) hok
  rw [Session.publish]
  simp only
  rw [hwire, put_ipstack _ hpacket]

/-- What a publish over a connection does to the client is what it does to a
client alone. -/
theorem publish_toClient (c : Session) (p : Publishing) (t : List UInt8) (m : TopicMsg) :
    (c.publish p t m).2.toClient =
      (wrapperMqttPublish { p with writes := c.writes p.writes } c.toClient t m).2.2.1 :=
  congrArg Subscriber.toClient (put_toSubscriber _ _)

/-- A client that has sent a message over the connection that has been made. -/
def sentSession : Session := (accepted.publish takesAll (utf8 "/a") helloMsg).2

/-- Its message waits, and its connection has carried it behind the CONNECT. -/
theorem accepted_sends :
    0 < (accepted.publish takesAll (utf8 "/a") helloMsg).1 ∧
      sentSession.clientState = .connected ∧ sentSession.keepaliveProbes = 0 ∧
      sentSession.listPubWaitAck = [(helloMsg.numbered accepted.toClient).node (utf8 "/a") 0] ∧
      ∃ k, sentSession.ipstack = some [connectPacket (ConnectData.every {} k),
        (helloMsg.numbered accepted.toClient).packet (utf8 "/a")] := by
  have hmakes := wrapperMqttConnect_makes plain_default accepting (mcInit {} 2000 none) 30 rfl
    (Or.inl rfl)
  have hsuccess := wrapperMqttConnect_success plain_default accepting (mcInit {} 2000 none) 30 rfl
    (by decide) rfl rfl rfl [] 0 rfl
  have hnodes : accepted.listPubWaitAck = [] := hmakes.nodes
  obtain ⟨-, k, -, hip⟩ := hmakes.made hsuccess
  change accepted.ipstack = _ at hip
  have hwrites : { takesAll with writes := accepted.writes takesAll.writes } = takesAll := by
    rw [Session.writes, if_neg (hip ▸ Option.some_ne_none _)]
  have htopic : checkTopic .name (utf8 "/a") = true :=
    (checkTopic_short .name (by decide)).mpr ⟨by decide, by decide, by decide, by decide⟩
  obtain ⟨hrc, hclient⟩ := wrapperMqttPublish_takesAll accepted.toClient (utf8 "/a") helloMsg htopic
    accepted_connected rfl (by decide) (by rw [hnodes]; decide)
  rw [← hwrites] at hrc hclient
  have hpos : 0 < (accepted.publish takesAll (utf8 "/a") helloMsg).1 := by
    show 0 < (wrapperMqttPublish { takesAll with writes := accepted.writes takesAll.writes }
      accepted.toClient (utf8 "/a") helloMsg).1
    rw [hrc, nextId]
    split
    · decide
    · omega
  have hsent : sentSession.toClient = { accepted.toClient with
      packetId := nextId accepted.packetId
      listPubWaitAck := accepted.listPubWaitAck ++
        [(helloMsg.numbered accepted.toClient).node (utf8 "/a") 0] } :=
    (publish_toClient accepted takesAll (utf8 "/a") helloMsg).trans hclient
  refine ⟨hpos, ?_, ?_, ?_, k, ?_⟩
  · rw [hsent]
    exact accepted_connected
  · exact (put_keepaliveProbes _ _).trans (hmakes.probes hsuccess)
  · rw [hsent, hnodes]
    rfl
  · rw [sentSession, publish_ipstack (le_of_lt hpos), hip]
    rfl

/-! ## An acknowledgement that is cut short -/

/-- A message that is found in the buffer is delivered to the handlers of its
topic, and the call succeeds. -/
theorem handleRecvPublish_finds {mem s : List UInt8} {dup qos retained : UInt8} {id : ℕ}
    (h : Finds mem dup qos retained id t s) (ht : t ≠ []) (filters : List (List UInt8)) :
    ∃ x, handleRecvPublish filters mem = .ok x := by
  obtain ⟨data, hdata, -⟩ := h.topic
  have hlen : ¬(deserializePublish mem).2.topicLen = 0 := by
    rw [h.topicLen]
    exact fun h => ht (List.length_eq_zero_iff.mp h)
  rw [handleRecvPublish]
  simp only [h.rc, hdata]
  rw [if_neg (fun h => h rfl), if_neg hlen]
  split
  · exact ⟨_, rfl⟩
  · exact ⟨_, rfl⟩

/-- A message of the quality of service 1 that comes in is acknowledged. -/
theorem cycle_publish (c : Session) (r : Round) (left : List UInt8) (dup : UInt8)
    (hreading : r.reading.incoming =
      { left := left
        net := arrive (publishPacket dup m.qos m.retain m.packetId.toNat t m.payload)
        headGranted := true, packetGranted := true, dropGranted := true })
    (hstate : c.clientState = .connected) (hip : c.ipstack ≠ none)
    (hprobes : c.keepaliveProbes ≤ keepaliveProbeMax) (hdup : dup < 2) (hqos : m.qos = 1)
    (hretain : m.retain < 2) (ht : t ≠ []) (hfits : t.length + m.payload.length ≤ 1017) :
    cycle r c = mqttPuback r.ack { c with keepaliveProbes := 0 } m.packetId.toNat pubackType := by
  have hid : idBytes m.qos = 2 := by
    rw [hqos]
    rfl
  obtain ⟨pkt, tail, hread, hlaid⟩ := @readPacket_arrive left
    (header publishType dup m.qos m.retain)
    (publishBody t (publishRest m.qos m.packetId.toNat m.payload))
    (length_publishPacket_le (by rw [hid]; omega))
  obtain ⟨htype, -⟩ := header_fields (show publishType < 16 by decide) hdup
    (show m.qos < 4 by rw [hqos]; decide) hretain
  have hnet : c.readPacket r.reading = .packet pkt := by
    rw [Session.readPacket, Session.net, if_neg hip, hreading]
    exact hread
  have hfinds : Finds (pkt.buf.bytes ++ r.reading.behind) dup m.qos m.retain m.packetId.toNat t
      m.payload := by
    rw [hlaid.bytes, List.append_assoc]
    exact finds_publishPacket (tail ++ r.reading.behind) hdup (by rw [hqos]; decide)
      hretain m.packetId.toNat_lt (by omega) hlaid.lt
  obtain ⟨x, hdelivered⟩ := handleRecvPublish_finds hfinds ht
    (c.listSubHandle.map (·.topicFilter))
  rw [cycle, if_neg (not_not.mpr hstate), if_neg (UInt8.not_lt.mpr hprobes)]
  simp only
  rw [hnet]
  simp only
  rw [hlaid.type.trans htype, if_neg (by decide), if_neg (by decide), if_neg (by decide),
    if_neg (by decide), if_pos rfl, handleRecvPublishAck, hdelivered]
  simp only
  rw [hfinds.qos, hqos, if_neg (by decide), if_pos rfl, hfinds.packetId (by rw [hqos]; decide)]

/-- Where the network cuts the acknowledgement short, what went out of it
stays on the connection, and the round fails without another word. -/
theorem cycle_cut (c : Session) (r : Round) (left : List UInt8) (dup : UInt8) (wire : List UInt8)
    (hreading : r.reading.incoming =
      { left := left
        net := arrive (publishPacket dup m.qos m.retain m.packetId.toNat t m.payload)
        headGranted := true, packetGranted := true, dropGranted := true })
    (hstate : c.clientState = .connected) (hip : c.ipstack ≠ none)
    (hprobes : c.keepaliveProbes ≤ keepaliveProbeMax) (hdup : dup < 2) (hqos : m.qos = 1)
    (hretain : m.retain < 2) (ht : t ≠ []) (hfits : t.length + m.payload.length ≤ 1017)
    (hgranted : r.ack.bufGranted = true)
    (hcut : sendPacket (ackPacket m.packetId.toNat) r.ack.writes = (wire, false)) :
    cycle r c = (networkError, ({ c with keepaliveProbes := 0 } : Session).put wire) := by
  rw [cycle_publish c r left dup hreading hstate hip hprobes hdup hqos hretain ht hfits,
    mqttPuback_eq r.ack _ _ hgranted, Session.sendPacket, Session.writes, if_neg hip, hcut]
  rfl

/-- **A client goes on behind an acknowledgement that is cut short**: it
stays connected with a part of it out, and whatever it is told to publish
next goes out behind that part, and counts as sent. -/
theorem cycle_cut_ack (c : Session) (log : List (List UInt8)) (r : Round) (left : List UInt8)
    (dup : UInt8) (t : List UInt8) (m : TopicMsg) (wire : List UInt8)
    (hreading : r.reading.incoming =
      { left := left
        net := arrive (publishPacket dup m.qos m.retain m.packetId.toNat t m.payload)
        headGranted := true, packetGranted := true, dropGranted := true })
    (hstate : c.clientState = .connected) (hip : c.ipstack = some log)
    (hprobes : c.keepaliveProbes ≤ keepaliveProbeMax) (hdup : dup < 2) (hqos : m.qos = 1)
    (hretain : m.retain < 2) (ht : t ≠ []) (hfits : t.length + m.payload.length ≤ 1017)
    (hgranted : r.ack.bufGranted = true)
    (hcut : sendPacket (ackPacket m.packetId.toNat) r.ack.writes = (wire, false))
    (hne : wire ≠ []) :
    CutAck wire ∧ (cycle r c).2.clientState = .connected ∧
      (cycle r c).2.ipstack = some (log ++ [wire]) ∧
      ∀ (p : Publishing) (t' : List UInt8) (m' : TopicMsg),
        0 ≤ ((cycle r c).2.publish p t' m').1 →
          ((cycle r c).2.publish p t' m').2.ipstack =
            some (log ++ [wire, (m'.numbered (cycle r c).2.toClient).packet t']) := by
  have hspec := sendPacket_spec (ackPacket m.packetId.toNat) r.ack.writes
  rw [hcut] at hspec
  have hcutack : CutAck wire :=
    ⟨m.packetId.toNat, hspec.1, fun h => Bool.false_ne_true (hspec.2.mpr h)⟩
  have hcycle := cycle_cut c r left dup wire hreading hstate (hip ▸ Option.some_ne_none log)
    hprobes hdup hqos hretain ht hfits hgranted hcut
  have hput : (cycle r c).2.ipstack = some (log ++ [wire]) := by
    rw [hcycle, put_ipstack _ hne, hip]
    rfl
  refine ⟨hcutack, ?_, hput, fun p t' m' hsuccess => ?_⟩
  · rw [hcycle, put_toSubscriber]
    exact hstate
  · rw [publish_ipstack hsuccess, hput, Option.map_some, List.append_assoc]
    rfl

/-- A client that is connected and whose next acknowledgement is cut in two.
-/
def cutSession : Session :=
  { mcInit {} 2000 none with clientState := .connected, ipstack := some [] }
/-- A round that reads a message and in which the network takes two bytes of
the acknowledgement. -/
def cutRound : Round where
  reading := ⟨⟨[], arrive (helloMsg.packet (utf8 "/a")), true, true, true⟩, []⟩
  ack := ⟨true, [.wrote 2]⟩
  mypacketid := 0
  visit := fun _ => ⟨.connected, 0, [], 0⟩

/-- The four bytes of an acknowledgement: its type, its length and the
identifier. -/
theorem ackPacket_eq (packetid : ℕ) :
    ackPacket packetid = header pubackType 0 0 0 :: 2 :: int2 packetid := by
  rw [ackPacket, packetBytes, show (int2 packetid).length = 2 from rfl,
    Varint.encode_last (show 2 < 128 by decide)]
  rfl

/-- All that goes out of its acknowledgement are the first two bytes. -/
theorem sendPacket_cutRound :
    sendPacket (ackPacket helloMsg.packetId.toNat) cutRound.ack.writes = ([0x40, 2], false) := by
  rw [ackPacket_eq]
  decide

/-- Two bytes of an acknowledgement are all that goes out, and the client is
still connected. -/
theorem cycle_cut_ack_hello :
    CutAck [0x40, 2] ∧ (cycle cutRound cutSession).2.clientState = .connected ∧
      (cycle cutRound cutSession).2.ipstack = some ([] ++ [[0x40, 2]]) ∧
      ∀ (p : Publishing) (t' : List UInt8) (m' : TopicMsg),
        0 ≤ ((cycle cutRound cutSession).2.publish p t' m').1 →
          ((cycle cutRound cutSession).2.publish p t' m').2.ipstack =
            some ([] ++ [[0x40, 2],
              (m'.numbered (cycle cutRound cutSession).2.toClient).packet t']) :=
  cycle_cut_ack cutSession [] cutRound [] 0 (utf8 "/a") helloMsg [0x40, 2] rfl rfl rfl (by decide)
    (by decide) rfl (by decide) (by decide) (by decide) rfl sendPacket_cutRound (by decide)

/-! ## All that has gone out -/

/-- **What a connected client has put out is whole packets behind a
CONNECT**, over every run: every call with every outcome, the network
failing anywhere, the connection lost and made again. Where no
acknowledgement was cut short over the connection, what is read off it,
packet by packet, are these packets and nothing else. -/
theorem wire_framed (d : ConnectData) (hd : d.Plain) (c : Session) (hc : Reachable d c)
    (hstate : c.clientState = .connected) :
    ∃ k ws, c.ipstack = some (connectPacket (d.every k) :: ws) ∧
      (∀ w ∈ ws, Whole w ∨ CutAck w) ∧
      ((∀ w ∈ ws, ¬CutAck w) → ∀ packets : List (List UInt8), (∀ w ∈ packets, Whole w) →
        packets.flatten = (connectPacket (d.every k) :: ws).flatten →
          packets = connectPacket (d.every k) :: ws) := by
  obtain ⟨k, ws, hwhole, hws, hip⟩ := (hc.framed hd).wire hstate
  refine ⟨k, ws, hip, hws, fun hacks packets hpackets hflatten => ?_⟩
  refine uniquelyDecodable_whole packets _ hpackets (fun w hw => ?_) hflatten
  rcases List.mem_cons.mp hw with rfl | hw
  · exact hwhole
  · exact (hws w hw).resolve_right (hacks w hw)

/-- A yield at which no ping is due, one tick before the time of the next. -/
def idleKeeping (c : Session) : Keeping where
  pingNow := c.nextPingTime - 1
  pingNext := 0
  ping := ⟨true, []⟩
  reconnectNow := 0
  connecting := accepting
  reconnectNext := 0

/-- A connected client does nothing in the keep-alive of such a yield. -/
theorem keepalive_idle (hstate : c.clientState = .connected) :
    keepalive (idleKeeping c) c = c := by
  have hdue : timeIsExpired c.nextPingTime (idleKeeping c).pingNow = false := by
    have hback : c.nextPingTime - 1 - c.nextPingTime = 0xFFFFFFFF := by grind
    rw [timeIsExpired, idleKeeping, hback]
    rfl
  rw [keepalive, keepaliveSub, if_neg (not_not.mpr hstate), if_pos hdue]
  simp only
  rw [if_neg (by rw [hstate]; decide), if_neg (by rw [hstate]; decide)]

/-- A client that has sent a message and acknowledged another, in part. -/
def sentCut : Session := wrapperMqttYield (idleKeeping sentSession) cutRound [] sentSession

/-- The client has connected, published and cut an acknowledgement, and is
connected at the end of it. -/
theorem sentCut_connected :
    sentCut.clientState = .connected ∧
      ∃ k, sentCut.ipstack = some [connectPacket (ConnectData.every {} k),
        (helloMsg.numbered accepted.toClient).packet (utf8 "/a"), [0x40, 2]] := by
  obtain ⟨-, hstate, hprobes, -, k, hip⟩ := accepted_sends
  have hcycle := cycle_cut (t := utf8 "/a") (m := helloMsg) sentSession cutRound [] 0 [0x40, 2] rfl
    hstate (hip ▸ Option.some_ne_none _) (by rw [hprobes]; decide) (by decide) rfl (by decide)
    (by decide) (by decide) rfl sendPacket_cutRound
  have hyield : sentCut = ({ sentSession with keepaliveProbes := 0 } : Session).put [0x40, 2] := by
    rw [sentCut, wrapperMqttYield, keepalive_idle hstate, mqttCycle, hcycle]
    simp only
    rw [if_neg (show networkError ≠ successReturn by decide)]
    rfl
  refine ⟨?_, k, ?_⟩
  · rw [hyield, put_toSubscriber]
    exact hstate
  · rw [hyield, put_ipstack _ (by decide)]
    show sentSession.ipstack.map _ = _
    rw [hip]
    rfl

/-- The connection of that run: a CONNECT, a publish and the two bytes of the
acknowledgement. -/
theorem wire_framed_cut :
    (∃ k, sentCut.ipstack = some [connectPacket (ConnectData.every {} k),
        (helloMsg.numbered accepted.toClient).packet (utf8 "/a"), [0x40, 2]]) ∧
      ∃ k ws, sentCut.ipstack = some (connectPacket (ConnectData.every {} k) :: ws) ∧
        (∀ w ∈ ws, Whole w ∨ CutAck w) ∧
        ((∀ w ∈ ws, ¬CutAck w) → ∀ packets : List (List UInt8), (∀ w ∈ packets, Whole w) →
          packets.flatten = (connectPacket (ConnectData.every {} k) :: ws).flatten →
            packets = connectPacket (ConnectData.every {} k) :: ws) :=
  ⟨sentCut_connected.2, wire_framed {} plain_default sentCut
    (.yield _ cutRound [] (.publish takesAll (utf8 "/a") helloMsg (.connect 2000 none accepting)))
    sentCut_connected.1⟩

end Mqtt

end WeatherTerminal
