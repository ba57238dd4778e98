import WeatherTerminal.Mqtt.Alive
/-!
# MQTT — messages over several connections

A message that waits for its acknowledgement outlasts the connection it
went out over: until a PUBACK with its identifier is read, or one without
any that is taken for it, it waits, over every run, and it goes out again
over whatever connection there is by then (`message_stays`).
-/

namespace WeatherTerminal

namespace Mqtt

variable {c c' : Session} {d : ConnectData} {packet : List UInt8} {id : UInt16}

/-! ## What waits -/

/-- What is put out has no part in the messages that wait. -/
theorem nodes_of_put (c : Session) (s : Subscriber) (wire : List UInt8) :
    (({ c with toSubscriber := s } : Session).put wire).listPubWaitAck = s.listPubWaitAck :=
  congrArg (fun s => s.toClient.listPubWaitAck) (put_toSubscriber _ _)

/-- A publish takes no message away, whether it is accepted or not. -/
theorem wrapperMqttPublish_nodes (p : Publishing) (c : Client) (t : List UInt8) (m : TopicMsg) :
    c.listPubWaitAck <+: (wrapperMqttPublish p c t m).2.2.1.listPubWaitAck := by
  by_cases h : checkTopic .name t = true ∧ c.clientState = .connected ∧ m.qos ≠ 2
  · obtain ⟨htopic, hstate, hqos⟩ := h
    have hnodes : (c.numbering m).listPubWaitAck = c.listPubWaitAck := by
      rw [Client.numbering]
      split <;> rfl
    rw [wrapperMqttPublish_eq htopic hstate hqos, ← hnodes]
    simp only
    rcases mqttPublish_spec p (c.numbering m) t (m.numbered c) with
      ⟨hrc, hclient, -, -⟩ | ⟨hrc, hclient, -, -⟩
    · rw [if_neg (not_not.mpr hrc), hclient, Client.accept]
      split
      · exact List.prefix_append _ _
      · exact List.prefix_refl _
    · rw [if_pos (ne_of_lt hrc), hclient, Client.failed]
      split
      · exact List.prefix_refl _
      · exact List.prefix_refl _
  · rw [(wrapperMqttPublish_refused h).2.1]
    split
    · exact List.prefix_refl _
    · exact List.prefix_refl _

/-- Nor does a publish over the connection of a client, which only adds to the
messages. -/
theorem publish_nodes (c : Session) (p : Publishing) (t : List UInt8) (m : TopicMsg) :
    c.listPubWaitAck <+: (c.publish p t m).2.listPubWaitAck := by
  rw [publish_toClient]
  exact wrapperMqttPublish_nodes { p with writes := c.writes p.writes } c.toClient t m

/-- A subscription leaves the messages that wait as they are. -/
theorem subscribe_nodes (c : Session) (q : Subscribing) (f : List UInt8) (qos : UInt8)
    (topicHandleFunc : Option ℕ) (pcontext : ℕ) :
    (c.subscribe q f qos topicHandleFunc pcontext).2.listPubWaitAck = c.listPubWaitAck :=
  (nodes_of_put c _ _).trans (wrapperMqttSubscribe_goes { q with writes := c.writes q.writes }
    c.toSubscriber f qos topicHandleFunc pcontext).1

theorem unsubscribe_nodes (c : Session) (q : Subscribing) (u : List UInt8) :
    (c.unsubscribe q u).2.listPubWaitAck = c.listPubWaitAck :=
  (nodes_of_put c _ _).trans
    (wrapperMqttUnsubscribe_goes { q with writes := c.writes q.writes } c.toSubscriber u).1

/-- Sending a packet leaves the subscriptions and the messages that wait
alone. -/
theorem Sends.toSubscriber {r : ℤ × Session} (h : Sends packet c r) :
    r.2.toSubscriber = c.toSubscriber := by
  rcases h with ⟨rfl, -⟩ | ⟨wire, -, -, rfl⟩ | ⟨-, -, hsame⟩
  · exact put_toSubscriber c packet
  · exact put_toSubscriber c wire
  · rw [hsame]

/-- The messages that wait are the same behind a packet that is sent. -/
theorem Sends.nodes {r : ℤ × Session} (h : Sends packet c r) :
    r.2.listPubWaitAck = c.listPubWaitAck :=
  congrArg (fun s => s.toClient.listPubWaitAck) h.toSubscriber

/-- Neither a ping nor the making of a connection touches what waits. -/
theorem keepaliveSub_nodes (k : Keeping) (c : Session) :
    (keepaliveSub k c).2.listPubWaitAck = c.listPubWaitAck := by
  rw [keepaliveSub]
  split
  · rfl
  split
  · rfl
  have hping := (mqttKeepalive_sends k.ping { c with
    nextPingTime := timeCountdownMs k.pingNext
      (c.connectData.keepAliveInterval.toUInt32 * 1000) }).nodes
  simp only
  split
  · split
    · exact hping
    · exact hping
  · exact hping

/-- The keep-alive of a yield leaves the messages alone, whether or not it
makes another connection. -/
theorem keepalive_nodes (hd : d.Plain) (k : Keeping) (h : Framed d c) :
    (keepalive k c).listPubWaitAck = c.listPubWaitAck := by
  have hsub := keepaliveSub_nodes k c
  obtain ⟨i, hdata⟩ := (h.goes (keepaliveSub_goes k c)).data
  have hmakes : Makes d (keepaliveSub k c).2.netDisconnect
      (attemptReconnect k.connecting (keepaliveSub k c).2) :=
    wrapperMqttConnect_makes hd k.connecting _ i hdata (Or.inl rfl)
  have hreconnect : (handleReconnect k (keepaliveSub k c).2).2.listPubWaitAck =
      c.listPubWaitAck := by
    have hnodes := hmakes.nodes.trans hsub
    rw [handleReconnect]
    split
    · exact hsub
    simp only
    split
    · exact hnodes
    split
    · exact hnodes
    · exact hnodes
  rw [keepalive]
  simp only
  split
  · split
    · exact hreconnect
    · exact hreconnect
  split
  · exact hsub
  · exact hsub

/-! ## A round -/

/-- An acknowledgement of the identifier is read in a round, or one that has
none in it while the variable for it, which nothing has set, holds this one. -/
def Round.Acks (id : UInt16) (r : Round) : Prop :=
  ∃ p, Mqtt.readPacket r.reading.incoming = .packet p ∧ r.acked p = some id

/-- What is done with a packet takes a message away only under the identifier
it acknowledges. -/
theorem Takes.waiting {acked : Option UInt16} (h : Takes acked c c') (hne : acked ≠ some id)
    (hwaits : (id, packet) ∈ waiting c.listPubWaitAck) :
    (id, packet) ∈ Mqtt.waiting c'.listPubWaitAck := by
  rw [h.nodes]
  cases acked with
  | none => exact hwaits
  | some other =>
      show (id, packet) ∈ Mqtt.waiting (List.map _ _)
      rw [waiting_mask]
      exact List.mem_filter.mpr ⟨hwaits, decide_eq_true fun h => hne (congrArg some h.symm)⟩

/-- Giving the connection up does not give up a message. -/
theorem probed_nodes (c : Session) : c.probed.listPubWaitAck = c.listPubWaitAck := by
  rw [Session.probed]
  split <;> rfl

/-- Only an acknowledgement of it takes a message away in a round. -/
theorem cycle_waiting {r : Round} (hacks : ¬r.Acks id)
    (hwaits : (id, packet) ∈ waiting c.listPubWaitAck) :
    (id, packet) ∈ waiting (cycle r c).2.listPubWaitAck := by
  by_cases hstate : c.clientState = .connected
  · rw [← probed_nodes] at hwaits
    rcases cycle_cases r c hstate with ⟨rc, -, h⟩ | ⟨-, h⟩ | ⟨p, hread, -, htakes⟩
    · rw [h]
      simp only
      split
      · exact hwaits
      · exact hwaits
    · rw [h]
      exact hwaits
    · have hnet : Mqtt.readPacket r.reading.incoming = .packet p := by
        rcases readPacket_cases c.probed r.reading with hnet | hnet
        · rw [hread] at hnet
          cases hnet
        · exact hnet.symm.trans hread
      exact htakes.waiting (fun hacked => hacks ⟨p, hnet, hacked⟩) hwaits
  · rw [cycle, if_pos hstate]
    exact hwaits

/-- Sending again leaves the messages that wait, and only clears away the
nodes that are masked. -/
theorem pubInfoProc_waiting (c : Session) (visit : ℕ → Visit) :
    waiting (c.pubInfoProc visit).listPubWaitAck = waiting c.listPubWaitAck := by
  obtain ⟨ip, heq, -⟩ := pubInfoProc_eq c visit
  rw [heq]
  exact (pubInfoProcLoop_spec c.requestTimeoutMs c.listPubWaitAck (c.visits visit)).1

/-- Rounds without its acknowledgement leave a message waiting, by induction
over them. -/
theorem mqttCycle_waiting {rounds : List Round} (hacks : ∀ r ∈ rounds, ¬r.Acks id)
    (hwaits : (id, packet) ∈ waiting c.listPubWaitAck) :
    (id, packet) ∈ waiting (mqttCycle c rounds).listPubWaitAck := by
  induction rounds generalizing c with
  | nil => exact hwaits
  | cons r rounds ih =>
      have hround := cycle_waiting (hacks r List.mem_cons_self) hwaits
      rw [mqttCycle]
      simp only
      refine ih (fun r hr => hacks r (List.mem_cons_of_mem _ hr)) ?_
      split
      · rw [pubInfoProc_waiting]
        exact hround
      · exact hround

/-! ## Runs -/

/-- A run of the client in which no acknowledgement of the identifier is
read, nor one without any that is taken for it. -/
inductive Since (id : UInt16) (c : Session) : Session → Prop
  | refl : Since id c c
  | publish {c' : Session} (p : Publishing) (topicName : List UInt8) (topicMsg : TopicMsg) :
      Since id c c' → Since id c (c'.publish p topicName topicMsg).2
  | subscribe {c' : Session} (q : Subscribing) (topicFilter : List UInt8) (qos : UInt8)
      (topicHandleFunc : Option ℕ) (pcontext : ℕ) :
      Since id c c' → Since id c (c'.subscribe q topicFilter qos topicHandleFunc pcontext).2
  | unsubscribe {c' : Session} (q : Subscribing) (topicFilter : List UInt8) :
      Since id c c' → Since id c (c'.unsubscribe q topicFilter).2
  | yield {c' : Session} (k : Keeping) (first : Round) (rounds : List Round) :
      Since id c c' → (∀ r ∈ first :: rounds, ¬r.Acks id) →
        Since id c (wrapperMqttYield k first rounds c')

/-- A run without the acknowledgement is a run of the client. -/
theorem Since.reachable (h : Since id c c') (hc : Reachable d c) : Reachable d c' := by
  induction h with
  | refl => exact hc
  | publish p t m _ ih => exact .publish p t m ih
  | subscribe q f qos hFp x _ ih => exact .subscribe q f qos hFp x ih
  | unsubscribe q u _ ih => exact .unsubscribe q u ih
  | yield k first rounds _ _ ih => exact .yield k first rounds ih

/-- What waits keeps waiting, by induction over a run without its
acknowledgement. -/
theorem Since.waiting (hd : d.Plain) (hc : Reachable d c) (h : Since id c c')
    (hwaits : (id, packet) ∈ waiting c.listPubWaitAck) :
    (id, packet) ∈ waiting c'.listPubWaitAck := by
  induction h with
  | refl => exact hwaits
  | @publish c' p t m _ ih =>
      obtain ⟨more, hmore⟩ := publish_nodes c' p t m
      rw [← hmore, waiting_append]
      exact List.mem_append_left _ ih
  | @subscribe c' q f qos hFp x _ ih =>
      rw [subscribe_nodes c' q f qos hFp x]
      exact ih
  | @unsubscribe c' q u _ ih =>
      rw [unsubscribe_nodes c' q u]
      exact ih
  | @yield c' k first rounds h hacks ih =>
      rw [wrapperMqttYield]
      refine mqttCycle_waiting hacks ?_
      rw [keepalive_nodes hd k ((h.reachable hc).framed hd)]
      exact ih

/-- A message that is accepted waits, under the identifier it was given and
with the bytes that went out. -/
theorem publish_waits (c : Session) (p : Publishing) (t : List UInt8) (m : TopicMsg)
    (hok : 0 < (c.publish p t m).1) :
    ((m.numbered c.toClient).packetId, (m.numbered c.toClient).packet t) ∈
      waiting (c.publish p t m).2.listPubWaitAck := by
  have hok' :
      0 < (wrapperMqttPublish { p with writes := c.writes p.writes } c.toClient t m).1 := hok
  rw [publish_toClient]
  by_cases h : checkTopic .name t = true ∧ c.clientState = .connected ∧ m.qos ≠ 2
  · obtain ⟨htopic, hstate, hqos⟩ := h
    rw [wrapperMqttPublish_eq htopic hstate hqos] at hok' ⊢
    simp only at hok' ⊢
    rcases mqttPublish_spec { p with writes := c.writes p.writes } (c.toClient.numbering m) t
      (m.numbered c.toClient) with ⟨hrc, hclient, -, -⟩ | ⟨hrc, -, -, -⟩
    · rw [if_neg (not_not.mpr hrc)] at hok' ⊢
      have hone : m.qos = 1 := by
        by_contra hone
        rw [if_neg hone] at hok'
        exact lt_irrefl 0 hok'
      have hqos' : (m.numbered c.toClient).qos = 1 := by
        rw [TopicMsg.numbered, if_pos (Or.inl hone)]
        exact hone
      rw [hclient, Client.accept, hqos', if_pos (by decide), waiting_append]
      exact List.mem_append_right _ (List.mem_singleton.mpr rfl)
    · rw [if_pos (ne_of_lt hrc)] at hok'
      exact absurd hok' (not_lt.mpr (le_of_lt hrc))
  · have := (wrapperMqttPublish_refused (p := { p with writes := c.writes p.writes }) h).1
    omega

/-- What the loop meets at a node over a connection is what it would meet
there alone, with the state of the client. -/
theorem mem_visited_visits {nodes : List PubInfo} {visit : ℕ → Visit} {x : PubInfo × Visit}
    (hip : c.ipstack ≠ none) (hx : x ∈ visited nodes (c.visits visit)) :
    ∃ y ∈ visited nodes visit, (y.1, { y.2 with state := c.clientState }) = x := by
  have hvisits : c.visits visit = fun k => { visit k with state := c.clientState } := by
    funext k
    rw [Session.visits, Session.writes, if_neg hip]
  rw [hvisits, visited_map fun v => { v with state := c.clientState }] at hx
  exact List.mem_map.mp hx

/-- What sending again puts out: the messages that are overdue where the loop
comes to them, on a connection that takes each of them. -/
theorem pubInfoProc_again {visit : ℕ → Visit} (hstate : c.clientState = .connected)
    (hip : c.ipstack ≠ none)
    (hwrites : ∀ x ∈ visited c.listPubWaitAck visit, Overdue c.toClient x.2 x.1 →
      (Mqtt.sendPacket x.1.buf x.2.writes).2 = true) :
    (Mqtt.pubInfoProc c.toClient (c.visits visit)).2 =
      ((visited c.listPubWaitAck (c.visits visit)).filter fun x =>
        Overdue c.toClient x.2 x.1).map fun x => (x.1.restarted x.2, x.1.buf) := by
  rw [Mqtt.pubInfoProc, pubInfoProcLoop_overdue]
  · intro x hx
    obtain ⟨y, -, rfl⟩ := mem_visited_visits hip hx
    exact hstate
  · intro x hx hover
    obtain ⟨y, hy, rfl⟩ := mem_visited_visits hip hx
    exact hwrites y hy hover

/-- What waits and is overdue goes out, on a connection that takes it. -/
theorem pubInfoProc_puts (h : Framed d c) (visit : ℕ → Visit) (hstate : c.clientState = .connected)
    (hwaits : (id, packet) ∈ waiting c.listPubWaitAck)
    (hwrites : ∀ x ∈ visited c.listPubWaitAck visit, Overdue c.toClient x.2 x.1 →
      (Mqtt.sendPacket x.1.buf x.2.writes).2 = true)
    (hdue : ∀ x ∈ visited c.listPubWaitAck visit, x.1.msgId = id →
      c.requestTimeoutMs * 2 < timeSpend x.1.pubStartTime x.2.now) :
    ∃ log ws, c.ipstack = some log ∧ (c.pubInfoProc visit).ipstack = some (log ++ ws) ∧
      packet ∈ ws := by
  obtain ⟨i, log, -, -, hip⟩ := h.wire hstate
  have hmade : c.ipstack ≠ none := hip ▸ Option.some_ne_none _
  have hagain := pubInfoProc_again hstate hmade hwrites
  obtain ⟨ip, heq, hwire⟩ := pubInfoProc_eq c visit
  have hwhole := hwire fun x hx => by
    rw [hagain] at hx
    obtain ⟨y, hy, rfl⟩ := List.mem_map.mp hx
    have hnode : y.1 ∈ c.listPubWaitAck := by
      rw [← map_fst_visited c.listPubWaitAck (c.visits visit)]
      exact List.mem_map_of_mem (List.mem_filter.mp hy).1
    exact whole_ne_nil (h.kept y.1 hnode)
  refine ⟨connectPacket (d.every i) :: log,
    (Mqtt.pubInfoProc c.toClient (c.visits visit)).2.map Prod.snd, hip, ?_, ?_⟩
  · rw [heq]
    show ip = _
    rw [hwhole, hip]
    rfl
  · -- the node that waits is among those that the loop comes to
    obtain ⟨node, hnode, hpair⟩ := List.mem_map.mp hwaits
    obtain ⟨hwait, hnormanl⟩ := List.mem_filter.mp hnode
    obtain ⟨hid, hbuf⟩ := Prod.mk.inj hpair
    rw [← map_fst_visited c.listPubWaitAck (c.visits visit)] at hwait
    obtain ⟨x, hx, rfl⟩ := List.mem_map.mp hwait
    have hover : Overdue c.toClient x.2 x.1 := by
      obtain ⟨y, hy, rfl⟩ := mem_visited_visits hmade hx
      exact ⟨of_decide_eq_true hnormanl, hdue y hy hid⟩
    rw [hagain]
    refine List.mem_map.mpr ⟨_, List.mem_map.mpr ⟨x, List.mem_filter.mpr ⟨hx, ?_⟩, rfl⟩, hbuf⟩
    exact decide_eq_true hover

/-- **A message outlasts the connection it went out over.** From a publish
that is accepted under an identifier, over every run in which no
acknowledgement of it is read, with connections lost and made: the packet
waits, byte for byte, and goes out again where it is overdue when the loop
comes to it and the connection takes what is sent. -/
theorem message_stays (d : ConnectData) (hd : d.Plain) (c c' : Session) (hc : Reachable d c)
    (p : Publishing) (t : List UInt8) (m : TopicMsg) (hok : 0 < (c.publish p t m).1)
    (h : Since (m.numbered c.toClient).packetId (c.publish p t m).2 c') :
    ((m.numbered c.toClient).packetId, (m.numbered c.toClient).packet t) ∈
        waiting c'.listPubWaitAck ∧
      ∀ visit : ℕ → Visit, c'.clientState = .connected →
        (∀ x ∈ visited c'.listPubWaitAck visit, Overdue c'.toClient x.2 x.1 →
          (Mqtt.sendPacket x.1.buf x.2.writes).2 = true) →
        (∀ x ∈ visited c'.listPubWaitAck visit,
          x.1.msgId = (m.numbered c.toClient).packetId →
            c'.requestTimeoutMs * 2 < timeSpend x.1.pubStartTime x.2.now) →
        ∃ log ws, c'.ipstack = some log ∧ (c'.pubInfoProc visit).ipstack = some (log ++ ws) ∧
          (m.numbered c.toClient).packet t ∈ ws := by
  have hsent : Reachable d (c.publish p t m).2 := .publish p t m hc
  have hwaits := h.waiting hd hsent (publish_waits c p t m hok)
  exact ⟨hwaits, fun visit hstate hwrites hdue =>
    pubInfoProc_puts ((h.reachable hsent).framed hd) visit hstate hwaits hwrites hdue⟩

/-- A visit at which every message that waits is overdue. -/
def overdueVisit (c : Session) : Visit :=
  ⟨c.clientState, c.requestTimeoutMs * 2 + 1, [.wrote 1024], 0⟩

/-- One tick more than twice the timeout has gone by at that visit. -/
theorem timeSpend_overdueVisit (c : Session) :
    c.requestTimeoutMs * 2 < timeSpend 0 (overdueVisit c).now := by
  rw [timeSpend, overdueVisit, UInt32.sub_zero, UInt32.lt_iff_toNat_lt, UInt32.toNat_add,
    UInt32.toNat_mul]
  have h : (2 : UInt32).toNat = 2 ∧ (1 : UInt32).toNat = 1 := ⟨rfl, rfl⟩
  rw [h.1, h.2]
  omega

/-- A message that outlasts the loss of its connection, and is sent again when
it is overdue. -/
theorem message_stays_sent :
    ((helloMsg.numbered accepted.toClient).packetId,
        (helloMsg.numbered accepted.toClient).packet (utf8 "/a")) ∈
      waiting (wrapperMqttYield lostKeeping silentRound [] sentSession).listPubWaitAck ∧
      ∃ log ws, sentSession.ipstack = some log ∧
        (sentSession.pubInfoProc fun _ => overdueVisit sentSession).ipstack = some (log ++ ws) ∧
        (helloMsg.numbered accepted.toClient).packet (utf8 "/a") ∈ ws := by
  obtain ⟨hrc, hstate, -, hnodes, -⟩ := accepted_sends
  have hc : Reachable {} accepted := .connect 2000 none accepting
  have hsilent : ∀ r ∈ [silentRound],
      ¬r.Acks (helloMsg.numbered accepted.toClient).packetId := by
    intro r hr hacks
    obtain rfl := List.mem_singleton.mp hr
    obtain ⟨p, hread, -⟩ := hacks
    cases hread
  refine ⟨(message_stays {} plain_default accepted _ hc takesAll (utf8 "/a") helloMsg hrc
    (.yield lostKeeping silentRound [] .refl hsilent)).1, ?_⟩
  have hvisited : visited sentSession.listPubWaitAck (fun _ => overdueVisit sentSession) =
      [((helloMsg.numbered accepted.toClient).node (utf8 "/a") 0, overdueVisit sentSession)] := by
    rw [hnodes]
    rfl
  refine (message_stays {} plain_default accepted _ hc takesAll (utf8 "/a") helloMsg hrc .refl).2
    (fun _ => overdueVisit sentSession) hstate ?_ ?_
  · intro x hx _
    obtain rfl := List.mem_singleton.mp (hvisited ▸ hx)
    refine sendPacket_whole (length_publishPacket_le ?_)
    have hone : helloMsg.qos = 1 := rfl
    rw [TopicMsg.numbered, if_pos (Or.inl hone)]
    exact show 2 + 5 + 2 ≤ 1019 by decide
  · intro x hx _
    obtain rfl := List.mem_singleton.mp (hvisited ▸ hx)
    exact timeSpend_overdueVisit sentSession

end Mqtt

end WeatherTerminal
