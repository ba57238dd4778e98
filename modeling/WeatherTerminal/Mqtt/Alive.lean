import WeatherTerminal.Mqtt.Session
/-!
# MQTT — whether a connection is alive

A client gives a connection up with the third ping that goes out without a
packet coming in that it counts (`unanswered_pings`). Then it tries to make another, and
waits twice as long after each try that fails (`reconnects_on_time`).
-/

namespace WeatherTerminal

namespace Mqtt

variable {c c' : Session} {d : ConnectData}

/-! ## Rounds -/

/-- A packet is read in a round, of another type than `MQTT_CPT_RESERVED`,
which the client takes for none. -/
def Round.heard (r : Round) : Bool :=
  match Mqtt.readPacket r.reading.incoming with
  | .packet p => p.type ≠ reservedType
  | _ => false

/-- Where nothing is read, or a reserved type, the round counts for none. -/
theorem Round.heard_of_passes {r : Round}
    (h : (Mqtt.readPacket r.reading.incoming).Passes) : r.heard = false := by
  rw [Round.heard]
  split
  · rename_i p hread
    rw [hread] at h
    exact decide_eq_false (not_not.mpr h)
  · rfl

/-- Nothing breaks the connection while a packet is read in a round, so the
client stays connected. -/
def Round.Steady (r : Round) : Prop :=
  Mqtt.readPacket r.reading.incoming ≠ .failed networkError

/-- As long as no more than two pings are unanswered the connection is not
given up. -/
theorem probed_eq (h : c.keepaliveProbes ≤ keepaliveProbeMax) : c.probed = c := by
  rw [Session.probed, if_neg (UInt8.not_lt.mpr h)]

/-- A client that is connected behind a round has had no third ping, and
has started to count anew where it has read a packet. -/
theorem cycle_probes {r : Round} (hstate : (cycle r c).2.clientState = .connected) :
    c.keepaliveProbes ≤ keepaliveProbeMax ∧
      (cycle r c).2.keepaliveProbes = if r.heard then 0 else c.keepaliveProbes := by
  have hconnected := (cycle_goes r c).connected hstate
  have hprobes : c.keepaliveProbes ≤ keepaliveProbeMax := by
    by_contra hmany
    have hlost : c.probed.clientState = .disconnected := by
      rw [Session.probed, if_pos (UInt8.not_le.mp hmany)]
      rfl
    -- what comes behind does not connect it again
    rcases cycle_cases r c hconnected with ⟨rc, -, h⟩ | ⟨-, h⟩ | ⟨p, -, -, h⟩
    · rw [h] at hstate
      simp only at hstate
      split at hstate
      · cases hstate
      · rw [hlost] at hstate
        cases hstate
    · rw [h, hlost] at hstate
      cases hstate
    · have hsame := h.state.symm.trans hstate
      rw [show ({ c.probed with keepaliveProbes := 0 } : Session).clientState =
        c.probed.clientState from rfl, hlost] at hsame
      cases hsame
  refine ⟨hprobes, ?_⟩
  have hcases := cycle_cases r c hconnected
  rw [probed_eq hprobes] at hcases
  rcases hcases with ⟨rc, hread, h⟩ | ⟨hread, h⟩ | ⟨p, hread, htype, h⟩
  · rw [h] at hstate ⊢
    simp only at hstate ⊢
    split at hstate
    · cases hstate
    · rename_i hrc
      rw [if_neg hrc]
      rcases readPacket_cases c r.reading with hnet | hnet
      · rw [hread] at hnet
        exact absurd (Outcome.failed.inj hnet) hrc
      · rw [Round.heard, ← hnet, hread]
        rfl
  · rcases readPacket_cases c r.reading with hnet | hnet
    · rw [hnet] at hread
      cases hread
    · rw [h, Round.heard_of_passes (hnet ▸ hread)]
      rfl
  · rcases readPacket_cases c r.reading with hnet | hnet
    · rw [hread] at hnet
      cases hnet
    · rw [h.probes, Round.heard, ← hnet, hread]
      exact (if_pos (decide_eq_true htype)).symm

/-- Sending again leaves the number of unanswered pings alone. -/
theorem pubInfoProc_probes (c : Session) (visit : ℕ → Visit) :
    (c.pubInfoProc visit).keepaliveProbes = c.keepaliveProbes := by
  obtain ⟨ip, heq, -⟩ := pubInfoProc_eq c visit
  rw [heq]

/-- The same of several rounds, by induction: counting starts anew with the
last packet that was heard. -/
theorem mqttCycle_probes {rounds : List Round}
    (hstate : (mqttCycle c rounds).clientState = .connected) :
    (rounds ≠ [] → c.keepaliveProbes ≤ keepaliveProbeMax) ∧
      (mqttCycle c rounds).keepaliveProbes =
        if ∃ r ∈ rounds, r.heard = true then 0 else c.keepaliveProbes := by
  induction rounds generalizing c with
  | nil => exact ⟨fun h => absurd rfl h, by simp [mqttCycle]⟩
  | cons r rounds ih =>
      rw [mqttCycle] at hstate ⊢
      simp only at hstate ⊢
      set c₁ : Session :=
        if (cycle r c).1 = successReturn then (cycle r c).2.pubInfoProc r.visit
        else (cycle r c).2 with hc₁
      have hgoes : Goes (cycle r c).2 c₁ := by
        rw [hc₁]
        split
        · exact pubInfoProc_goes _ r.visit
        · exact .refl _
      have hsame : c₁.keepaliveProbes = (cycle r c).2.keepaliveProbes := by
        rw [hc₁]
        split
        · exact pubInfoProc_probes _ r.visit
        · rfl
      obtain ⟨-, hrest⟩ := ih hstate
      obtain ⟨hprobes, hround⟩ :=
        cycle_probes (hgoes.connected ((mqttCycle_goes c₁ rounds).connected hstate))
      refine ⟨fun _ => hprobes, ?_⟩
      rw [hrest, hsame, hround]
      by_cases hmore : ∃ r ∈ rounds, r.heard = true
      · rw [if_pos hmore, if_pos (hmore.imp fun r h => ⟨List.mem_cons_of_mem _ h.1, h.2⟩)]
      · rw [if_neg hmore]
        by_cases hheard : r.heard = true
        · rw [if_pos hheard, if_pos ⟨r, List.mem_cons_self, hheard⟩]
        · rw [if_neg hheard, if_neg]
          rintro ⟨r', hmem, hheard'⟩
          rcases List.mem_cons.mp hmem with rfl | hmem
          · exact hheard hheard'
          · exact hmore ⟨r', hmem, hheard'⟩

/-! ## Pings -/

/-- A ping is due, its buffer is granted and the network takes all of it. -/
def Pinged (k : Keeping) (c : Session) : Prop :=
  timeIsExpired c.nextPingTime k.pingNow = true ∧ k.ping.bufGranted = true ∧
    (c.sendPacket pingPacket k.ping.writes).1 = true

/-- A client that is still connected behind its ping counts it. -/
theorem keepaliveSub_probes {k : Keeping} (hstate : c.clientState = .connected)
    (hsub : (keepaliveSub k c).2.clientState = .connected) :
    (Pinged k c → (keepaliveSub k c).2.keepaliveProbes = c.keepaliveProbes + 1) ∧
      (¬Pinged k c → (keepaliveSub k c).2.keepaliveProbes = c.keepaliveProbes) := by
  rw [keepaliveSub, if_neg (not_not.mpr hstate)] at hsub ⊢
  by_cases hdue : timeIsExpired c.nextPingTime k.pingNow = false
  · rw [if_pos hdue]
    refine ⟨fun h => ?_, fun _ => rfl⟩
    rw [h.1] at hdue
    cases hdue
  rw [if_neg hdue] at hsub ⊢
  simp only at hsub ⊢
  set c₁ : Session :=
    { c with
      nextPingTime := timeCountdownMs k.pingNext
        (c.connectData.keepAliveInterval.toUInt32 * 1000) }
  by_cases hgranted : k.ping.bufGranted = true
  · rw [mqttKeepalive_eq k.ping c₁ hgranted] at hsub ⊢
    by_cases hsent : (c₁.sendPacket pingPacket k.ping.writes).1 = false
    · -- a ping that does not go out ends the connection
      rw [if_pos hsent] at hsub
      cases hsub
    · rw [if_neg hsent]
      refine ⟨fun _ => ?_, fun h => ?_⟩
      · show (c₁.sendPacket pingPacket k.ping.writes).2.keepaliveProbes + 1 = _
        rw [Session.sendPacket, put_keepaliveProbes]
      · exact absurd ⟨Bool.eq_true_of_not_eq_false hdue, hgranted,
          Bool.eq_true_of_not_eq_false hsent⟩ h
  · rw [mqttKeepalive, if_pos (Bool.eq_false_of_not_eq_true hgranted)]
    exact ⟨fun h => absurd h.2.1 hgranted, fun _ => rfl⟩

/-- The keep-alive does nothing behind its ping, while the client is
connected. -/
theorem keepalive_of_connected {k : Keeping}
    (hsub : (keepaliveSub k c).2.clientState = .connected) :
    keepalive k c = (keepaliveSub k c).2 := by
  rw [keepalive]
  simp only
  rw [if_neg (by rw [hsub]; decide), if_neg (by rw [hsub]; decide)]

/-- A client that is connected is so behind its ping. -/
theorem keepalive_eq {k : Keeping} (hstate : c.clientState = .connected)
    (hkept : (keepalive k c).clientState = .connected) :
    (keepaliveSub k c).2.clientState = .connected ∧ keepalive k c = (keepaliveSub k c).2 := by
  rcases (keepaliveSub_goes k c).state with hs | hs
  · have hsub : (keepaliveSub k c).2.clientState = .connected := hs.trans hstate
    exact ⟨hsub, keepalive_of_connected hsub⟩
  · rw [keepalive] at hkept
    simp only at hkept
    rw [if_neg (by rw [hs]; decide), if_pos hs] at hkept
    cases hkept

/-! ## Tries to reconnect -/

/-- Sending a CONNECT never answers that the time for a try has not come. -/
theorem mqttConnect_rc (s : Send) (c : Session) : (mqttConnect s c).1 ≠ connectBlock := by
  rw [mqttConnect]
  split
  · exact show failReturn ≠ connectBlock by decide
  simp only
  split
  · exact show connectPacketError ≠ connectBlock by decide
  split
  · exact show networkError ≠ connectBlock by decide
  · exact show successReturn ≠ connectBlock by decide

/-- Nor do the tries of one call, by induction over them. -/
theorem mqttConnectTries_rc (user : UInt16) (n : ℕ) (tries : ℕ → Try) (c : Session) :
    (mqttConnectTries user c n tries).1 ≠ connectBlock := by
  induction n generalizing c tries with
  | zero => exact show connectError ≠ connectBlock by decide
  | succ n ih =>
      rw [mqttConnectTries]
      simp only
      split
      · exact mqttConnect_rc _ _
      split
      · exact show connectError ≠ connectBlock by decide
      split
      · exact ih _ _
      · exact show successReturn ≠ connectBlock by decide

/-- Nor does a try to reconnect, so a yield that tries sets the time of the
next. -/
theorem attemptReconnect_rc (e : Connecting) (c : Session) :
    (attemptReconnect e c).1 ≠ connectBlock := mqttConnectTries_rc _ _ _ _

/-- The interval behind a try that fails: twice as long, up to the longest
one. -/
def nextInterval (interval : UInt32) : UInt32 :=
  if interval < reconnectIntervalMaxMs then interval * 2 else reconnectIntervalMaxMs

/-- What a try to reconnect comes to, once it is due. -/
theorem handleReconnect_eq {k : Keeping}
    (hdue : timeIsExpired c.reconnectNextTime k.reconnectNow = true) :
    handleReconnect k c =
      if (attemptReconnect k.connecting c).1 = successReturn then
        (successReturn, (attemptReconnect k.connecting c).2.setClientState .connected)
      else
        ((attemptReconnect k.connecting c).1,
          { (attemptReconnect k.connecting c).2 with
            reconnectTimeIntervalMs :=
              nextInterval (attemptReconnect k.connecting c).2.reconnectTimeIntervalMs
            reconnectNextTime := timeCountdownMs k.reconnectNext
              (if reconnectIntervalMaxMs <
                  nextInterval (attemptReconnect k.connecting c).2.reconnectTimeIntervalMs then
                reconnectIntervalMaxMs
              else nextInterval (attemptReconnect k.connecting c).2.reconnectTimeIntervalMs) }) := by
  rw [handleReconnect, if_neg (by rw [hdue]; decide)]
  simp only
  rw [if_neg (attemptReconnect_rc k.connecting c)]
  rfl

/-- A client that waits for its next try is as it was behind one that is
not due. -/
theorem keepalive_waits {k : Keeping} (hstate : c.clientState = .disconnectedReconnecting) :
    keepalive k c =
      if (handleReconnect k c).1 = successReturn then
        { (handleReconnect k c).2 with reconnectTimeIntervalMs := reconnectIntervalMinMs }
      else (handleReconnect k c).2 := by
  have hsub : keepaliveSub k c = (successReturn, c) := by
    rw [keepaliveSub, if_pos (by rw [hstate]; decide)]
  rw [keepalive, hsub]
  simp only
  rw [if_pos (Or.inl hstate)]

/-- A client that waits was never blocked, and it is only by a try that it
is connected: the new connection has had no ping. -/
theorem keepalive_reconnected (hd : d.Plain) {k : Keeping} (h : Framed d c)
    (hstate : c.clientState ≠ .connected) (hkept : (keepalive k c).clientState = .connected) :
    (keepalive k c).keepaliveProbes = 0 := by
  have hsub : keepaliveSub k c = (successReturn, c) := by
    rw [keepaliveSub, if_pos hstate]
  obtain ⟨i, hdata⟩ := h.data
  have hmakes : Makes d c.netDisconnect (attemptReconnect k.connecting c) :=
    wrapperMqttConnect_makes hd k.connecting c.netDisconnect i hdata (Or.inl rfl)
  rw [keepalive, hsub] at hkept ⊢
  simp only at hkept ⊢
  split at hkept
  · rename_i hwaits
    rw [if_pos hwaits]
    by_cases hdue : timeIsExpired c.reconnectNextTime k.reconnectNow = true
    · rw [handleReconnect_eq hdue] at hkept ⊢
      by_cases hrc : (attemptReconnect k.connecting c).1 = successReturn
      · rw [if_pos hrc]
        exact hmakes.probes hrc
      · -- a try that fails leaves the client as connected as it was
        rw [if_neg hrc] at hkept
        simp only at hkept
        rw [if_neg hrc] at hkept
        exact absurd ((hmakes.failed hrc).symm.trans hkept) hstate
    · rw [handleReconnect, if_pos (Bool.eq_false_of_not_eq_true hdue)] at hkept
      exact absurd hkept hstate
  · split at hkept
    · cases hkept
    · exact absurd hkept hstate

/-! ## Pings without an answer -/

/-- A run of the client, with how many pings have gone out over its
connection since a packet was last read. -/
inductive Unanswered (d : ConnectData) : ℕ → Session → Prop
  | connect (requestTimeoutMs : UInt32) (handleEvent : Option EventHandle) (e : Connecting) :
      Unanswered d 0 (wrapperMqttConnect e (mcInit d requestTimeoutMs handleEvent)).2
  | publish {n : ℕ} {c : Session} (p : Publishing) (topicName : List UInt8) (topicMsg : TopicMsg) :
      Unanswered d n c → Unanswered d n (c.publish p topicName topicMsg).2
  | subscribe {n : ℕ} {c : Session} (q : Subscribing) (topicFilter : List UInt8) (qos : UInt8)
      (topicHandleFunc : Option ℕ) (pcontext : ℕ) :
      Unanswered d n c → Unanswered d n (c.subscribe q topicFilter qos topicHandleFunc pcontext).2
  | unsubscribe {n : ℕ} {c : Session} (q : Subscribing) (topicFilter : List UInt8) :
      Unanswered d n c → Unanswered d n (c.unsubscribe q topicFilter).2
  /-- Another connection, or none. -/
  | reconnect {n : ℕ} {c : Session} (k : Keeping) (first : Round) (rounds : List Round) :
      Unanswered d n c → c.clientState ≠ .connected →
        Unanswered d 0 (wrapperMqttYield k first rounds c)
  | heard {n : ℕ} {c : Session} (k : Keeping) (first : Round) (rounds : List Round) :
      Unanswered d n c → c.clientState = .connected → (∃ r ∈ first :: rounds, r.heard = true) →
        Unanswered d 0 (wrapperMqttYield k first rounds c)
  | pinged {n : ℕ} {c : Session} (k : Keeping) (first : Round) (rounds : List Round) :
      Unanswered d n c → c.clientState = .connected → (¬∃ r ∈ first :: rounds, r.heard = true) →
        Pinged k c → Unanswered d (n + 1) (wrapperMqttYield k first rounds c)
  | quiet {n : ℕ} {c : Session} (k : Keeping) (first : Round) (rounds : List Round) :
      Unanswered d n c → c.clientState = .connected → (¬∃ r ∈ first :: rounds, r.heard = true) →
        ¬Pinged k c → Unanswered d n (wrapperMqttYield k first rounds c)

variable {n : ℕ}

/-- A run that counts its pings is a run of the client. -/
theorem Unanswered.reachable (h : Unanswered d n c) : Reachable d c := by
  induction h with
  | connect requestTimeoutMs handleEvent e => exact .connect requestTimeoutMs handleEvent e
  | publish p t m _ ih => exact .publish p t m ih
  | subscribe q f qos hFp x _ ih => exact .subscribe q f qos hFp x ih
  | unsubscribe q u _ ih => exact .unsubscribe q u ih
  | reconnect k first rounds _ _ ih => exact .yield k first rounds ih
  | heard k first rounds _ _ _ ih => exact .yield k first rounds ih
  | pinged k first rounds _ _ _ _ ih => exact .yield k first rounds ih
  | quiet k first rounds _ _ _ _ ih => exact .yield k first rounds ih

/-- Every run of the client is one of these, with some number of pings that
are unanswered. -/
theorem Reachable.unanswered (h : Reachable d c) : ∃ n, Unanswered d n c := by
  induction h with
  | connect requestTimeoutMs handleEvent e => exact ⟨0, .connect requestTimeoutMs handleEvent e⟩
  | publish p t m _ ih =>
      obtain ⟨n, hn⟩ := ih
      exact ⟨n, .publish p t m hn⟩
  | subscribe q f qos hFp x _ ih =>
      obtain ⟨n, hn⟩ := ih
      exact ⟨n, .subscribe q f qos hFp x hn⟩
  | unsubscribe q u _ ih =>
      obtain ⟨n, hn⟩ := ih
      exact ⟨n, .unsubscribe q u hn⟩
  | @yield c k first rounds _ ih =>
      obtain ⟨n, hn⟩ := ih
      by_cases hstate : c.clientState = .connected
      · by_cases hheard : ∃ r ∈ first :: rounds, r.heard = true
        · exact ⟨0, .heard k first rounds hn hstate hheard⟩
        · by_cases hpinged : Pinged k c
          · exact ⟨n + 1, .pinged k first rounds hn hstate hheard hpinged⟩
          · exact ⟨n, .quiet k first rounds hn hstate hheard hpinged⟩
      · exact ⟨0, .reconnect k first rounds hn hstate⟩

/-- A connected client that yields and stays so has counted its ping, and
started anew where a packet was heard. -/
theorem wrapperMqttYield_probes {k : Keeping} {first : Round} {rounds : List Round}
    (hstate : c.clientState = .connected)
    (hkept : (wrapperMqttYield k first rounds c).clientState = .connected) :
    (keepaliveSub k c).2.keepaliveProbes ≤ keepaliveProbeMax ∧
      (keepaliveSub k c).2.clientState = .connected ∧
      (wrapperMqttYield k first rounds c).keepaliveProbes =
        if ∃ r ∈ first :: rounds, r.heard = true then 0
        else (keepaliveSub k c).2.keepaliveProbes := by
  obtain ⟨hsub, heq⟩ := keepalive_eq hstate ((mqttCycle_goes _ (first :: rounds)).connected hkept)
  obtain ⟨hprobes, hrounds⟩ := mqttCycle_probes hkept
  rw [heq] at hprobes hrounds
  refine ⟨hprobes (List.cons_ne_nil _ _), hsub, ?_⟩
  rw [wrapperMqttYield, heq]
  exact hrounds

/-- **The client counts the pings as they are**, while it is connected, and
never beyond two. -/
theorem Unanswered.probes (hd : d.Plain) (h : Unanswered d n c)
    (hstate : c.clientState = .connected) : c.keepaliveProbes.toNat = n ∧ n ≤ 2 := by
  induction h with
  | connect requestTimeoutMs handleEvent e =>
      have hmakes := wrapperMqttConnect_makes hd e (mcInit d requestTimeoutMs handleEvent) _ rfl
        (Or.inl rfl)
      by_cases hrc :
          (wrapperMqttConnect e (mcInit d requestTimeoutMs handleEvent)).1 = successReturn
      · rw [hmakes.probes hrc]
        decide
      · exact absurd ((hmakes.failed hrc).symm.trans hstate)
          (show ClientState.initialized ≠ .connected by decide)
  | publish p t m _ ih =>
      obtain ⟨hn, hle⟩ := ih ((publish_goes _ p t m).connected hstate)
      exact ⟨(congrArg UInt8.toNat (put_keepaliveProbes _ _)).trans hn, hle⟩
  | subscribe q f qos hFp x _ ih =>
      obtain ⟨hn, hle⟩ := ih ((subscribe_goes _ q f qos hFp x).connected hstate)
      exact ⟨(congrArg UInt8.toNat (put_keepaliveProbes _ _)).trans hn, hle⟩
  | unsubscribe q u _ ih =>
      obtain ⟨hn, hle⟩ := ih ((unsubscribe_goes _ q u).connected hstate)
      exact ⟨(congrArg UInt8.toNat (put_keepaliveProbes _ _)).trans hn, hle⟩
  | reconnect k first rounds h hlost _ =>
      have hkept := (mqttCycle_goes _ (first :: rounds)).connected hstate
      have hzero := keepalive_reconnected hd (h.reachable.framed hd) hlost hkept
      obtain ⟨-, hrounds⟩ := mqttCycle_probes hstate
      rw [hzero, ite_self] at hrounds
      rw [wrapperMqttYield, hrounds]
      decide
  | heard k first rounds _ hconnected hheard _ =>
      obtain ⟨-, -, hrounds⟩ := wrapperMqttYield_probes hconnected hstate
      rw [hrounds, if_pos hheard]
      decide
  | @pinged n c k first rounds _ hconnected hheard hpinged ih =>
      obtain ⟨hle, hsub, hrounds⟩ := wrapperMqttYield_probes hconnected hstate
      obtain ⟨hn, hfew⟩ := ih hconnected
      have hone := (keepaliveSub_probes hconnected hsub).1 hpinged
      rw [hrounds, if_neg hheard]
      have hcount : (keepaliveSub k c).2.keepaliveProbes.toNat = n + 1 := by
        rw [hone, UInt8.toNat_add, hn]
        exact Nat.mod_eq_of_lt (by rw [UInt8.toNat_one]; omega)
      exact ⟨hcount, hcount ▸ UInt8.le_iff_toNat_le.mp hle⟩
  | quiet k first rounds _ hconnected hheard hpinged ih =>
      obtain ⟨-, hsub, hrounds⟩ := wrapperMqttYield_probes hconnected hstate
      rw [hrounds, if_neg hheard, (keepaliveSub_probes hconnected hsub).2 hpinged]
      exact ih hconnected

/-! ## A connection that nothing breaks -/

/-- Where nothing waits nothing is sent again, and the client is as it was. -/
theorem pubInfoProc_nil (hnil : c.listPubWaitAck = []) (visit : ℕ → Visit) :
    c.pubInfoProc visit = c := by
  rw [Session.pubInfoProc, Mqtt.pubInfoProc]
  rcases c with ⟨⟨⟨state, packetId, timeout, nodes⟩, handles, event⟩, data, probes⟩
  obtain rfl : nodes = [] := hnil
  rfl

/-- A steady round of a client that is connected, and waits for nothing. -/
theorem cycle_steady {r : Round} (h : Framed d c) (hstate : c.clientState = .connected)
    (hnil : c.listPubWaitAck = []) (hprobes : c.keepaliveProbes ≤ keepaliveProbeMax)
    (hsteady : r.Steady) :
    (cycle r c).2.clientState = .connected ∧ (cycle r c).2.listPubWaitAck = [] ∧
      (cycle r c).2.keepaliveProbes ≤ keepaliveProbeMax := by
  obtain ⟨i, ws, -, -, hip⟩ := h.wire hstate
  have hnet := readPacket_eq r.reading (hip ▸ Option.some_ne_none _)
  have hcases := cycle_cases r c hstate
  rw [probed_eq hprobes] at hcases
  rcases hcases with ⟨rc, hread, hcycle⟩ | ⟨-, hcycle⟩ | ⟨p, -, -, htakes⟩
  · have hrc : rc ≠ networkError := by
      rintro rfl
      exact hsteady (hnet.symm.trans hread)
    rw [hcycle]
    simp only
    rw [if_neg hrc]
    exact ⟨hstate, hnil, hprobes⟩
  · rw [hcycle]
    exact ⟨hstate, hnil, hprobes⟩
  · refine ⟨htakes.state.trans hstate, htakes.nodes_nil hnil, ?_⟩
    rw [htakes.probes]
    exact show (0 : UInt8) ≤ 2 by decide

/-- Rounds that break nothing leave a client connected, where no message waits
and no ping is one too many. -/
theorem mqttCycle_steady {rounds : List Round} (h : Framed d c)
    (hstate : c.clientState = .connected) (hnil : c.listPubWaitAck = [])
    (hprobes : c.keepaliveProbes ≤ keepaliveProbeMax) (hsteady : ∀ r ∈ rounds, r.Steady) :
    (mqttCycle c rounds).clientState = .connected ∧ (mqttCycle c rounds).listPubWaitAck = [] := by
  induction rounds generalizing c with
  | nil => exact ⟨hstate, hnil⟩
  | cons r rounds ih =>
      obtain ⟨hstate', hnil', hprobes'⟩ :=
        cycle_steady h hstate hnil hprobes (hsteady r List.mem_cons_self)
      have hframed := h.goes (cycle_goes r c)
      rw [mqttCycle]
      simp only
      rw [pubInfoProc_nil hnil', ite_self]
      exact ih hframed hstate' hnil' hprobes' fun r hr => hsteady r (List.mem_cons_of_mem _ hr)

/-- The network does not break the connection with a ping, where one goes
out. -/
def PingTaken (k : Keeping) (c : Session) : Prop :=
  timeIsExpired c.nextPingTime k.pingNow = true → k.ping.bufGranted = true →
    (c.sendPacket pingPacket k.ping.writes).1 = true

/-- A ping that the network takes, or that does not go out, leaves the
client connected. -/
theorem keepaliveSub_steady {k : Keeping} (hstate : c.clientState = .connected)
    (htaken : PingTaken k c) :
    (keepaliveSub k c).2.clientState = .connected ∧
      (keepaliveSub k c).2.listPubWaitAck = c.listPubWaitAck := by
  rw [keepaliveSub, if_neg (not_not.mpr hstate)]
  by_cases hexpired : timeIsExpired c.nextPingTime k.pingNow = false
  · rw [if_pos hexpired]
    exact ⟨hstate, rfl⟩
  rw [if_neg hexpired]
  simp only
  set c₁ : Session :=
    { c with
      nextPingTime := timeCountdownMs k.pingNext
        (c.connectData.keepAliveInterval.toUInt32 * 1000) }
  by_cases hgranted : k.ping.bufGranted = true
  · have hsent₁ : (c₁.sendPacket pingPacket k.ping.writes).1 = true :=
      htaken (Bool.eq_true_of_not_eq_false hexpired) hgranted
    have hsub : (c₁.sendPacket pingPacket k.ping.writes).2.toSubscriber = c.toSubscriber :=
      put_toSubscriber c₁ _
    rw [mqttKeepalive_eq k.ping c₁ hgranted, hsent₁, if_neg Bool.false_ne_true.symm]
    simp only
    rw [if_neg (fun h => h rfl)]
    refine ⟨?_, ?_⟩
    · exact (congrArg (fun s => s.toClient.clientState) hsub).trans hstate
    · exact congrArg (fun s => s.toClient.listPubWaitAck) hsub
  · -- without a buffer the ping fails, which is no failure of the network
    rw [mqttKeepalive, if_pos (Bool.eq_false_of_not_eq_true hgranted)]
    exact ⟨hstate, rfl⟩

/-- A yield that nothing breaks, with a ping too many or not. -/
theorem wrapperMqttYield_steady {k : Keeping} {first : Round} {rounds : List Round}
    (h : Framed d c) (hstate : c.clientState = .connected) (hnil : c.listPubWaitAck = [])
    (htaken : PingTaken k c) (hsteady : ∀ r ∈ first :: rounds, r.Steady)
    (hn : c.keepaliveProbes.toNat = n) (hle : n ≤ 2)
    (hfew : ¬(n = 2 ∧ Pinged k c)) :
    (wrapperMqttYield k first rounds c).clientState = .connected ∧
      (wrapperMqttYield k first rounds c).listPubWaitAck = [] := by
  obtain ⟨hsub, hnodes⟩ := keepaliveSub_steady hstate htaken
  have hprobes : (keepaliveSub k c).2.keepaliveProbes ≤ keepaliveProbeMax := by
    rw [UInt8.le_iff_toNat_le]
    by_cases hpinged : Pinged k c
    · have hone : n ≠ 2 := fun htwo => hfew ⟨htwo, hpinged⟩
      rw [(keepaliveSub_probes hstate hsub).1 hpinged, UInt8.toNat_add, hn, UInt8.toNat_one]
      show (n + 1) % 2 ^ 8 ≤ 2
      omega
    · rw [(keepaliveSub_probes hstate hsub).2 hpinged, hn]
      exact hle
  rw [wrapperMqttYield, keepalive_of_connected hsub]
  exact mqttCycle_steady (h.goes (keepaliveSub_goes k c)) hsub (hnodes.trans hnil) hprobes hsteady

/-- **The third ping without an answer ends a connection**, over every run:
a connected client has sent as many pings since it last read a packet as it
counts, two at most; a packet of the type `MQTT_CPT_RESERVED` does not count
as read. The yield that sends a third one leaves it disconnected, whatever
is read then, the answer among it; and where the network breaks nothing and
no message waits, no other yield does. -/
theorem unanswered_pings (d : ConnectData) (hd : d.Plain) (n : ℕ) (c : Session)
    (h : Unanswered d n c) (hstate : c.clientState = .connected) (k : Keeping) (first : Round)
    (rounds : List Round) :
    c.keepaliveProbes.toNat = n ∧ n ≤ 2 ∧
      (n = 2 → Pinged k c → (wrapperMqttYield k first rounds c).clientState ≠ .connected) ∧
      (c.listPubWaitAck = [] → PingTaken k c → (∀ r ∈ first :: rounds, r.Steady) →
        ¬(n = 2 ∧ Pinged k c) → (wrapperMqttYield k first rounds c).clientState = .connected) := by
  obtain ⟨hn, hle⟩ := h.probes hd hstate
  refine ⟨hn, hle, fun htwo hpinged hkept => ?_, fun hnil htaken hsteady hfew => ?_⟩
  · obtain ⟨hprobes, hsub, -⟩ := wrapperMqttYield_probes hstate hkept
    rw [(keepaliveSub_probes hstate hsub).1 hpinged, UInt8.le_iff_toNat_le, UInt8.toNat_add, hn,
      htwo] at hprobes
    exact absurd hprobes (by decide)
  · have hframed := h.reachable.framed hd
    exact (wrapperMqttYield_steady hframed hstate hnil htaken hsteady hn hle hfew).1

/-- A round in which nothing comes and nothing has to be sent. -/
def silentRound : Round where
  reading := ⟨⟨[], [], true, true, true⟩, []⟩
  ack := ⟨true, []⟩
  mypacketid := 0
  visit := fun _ => ⟨.connected, 0, [], 0⟩

/-- A yield at the time of the next ping, which the network takes. -/
def pingKeeping (c : Session) : Keeping where
  pingNow := c.nextPingTime
  pingNext := c.nextPingTime
  ping := ⟨true, [.wrote 1024]⟩
  reconnectNow := 0
  connecting := accepting
  reconnectNext := 0

theorem timeIsExpired_self (t : UInt32) : timeIsExpired t t = true := by
  simp [timeIsExpired]

/-- A yield at that time pings, over any connection that is there. -/
theorem pinged_pingKeeping (hip : c.ipstack ≠ none) : Pinged (pingKeeping c) c := by
  have hlen : pingPacket.length ≤ 1024 := by
    rw [pingPacket, packetBytes, show ([] : List UInt8).length = 0 from rfl,
      Varint.encode_last (show 0 < 128 by decide)]
    decide
  refine ⟨timeIsExpired_self _, rfl, ?_⟩
  rw [Session.sendPacket, Session.writes, if_neg hip]
  exact sendPacket_whole hlen

/-- A ping that nobody answers, the first or the second one. -/
theorem Unanswered.unheard (hd : d.Plain) (h : Unanswered d n c)
    (hstate : c.clientState = .connected) (hnil : c.listPubWaitAck = []) (hn : n < 2) :
    ∃ c', Unanswered d (n + 1) c' ∧ c'.clientState = .connected ∧ c'.listPubWaitAck = [] := by
  obtain ⟨i, ws, -, -, hip⟩ := (h.reachable.framed hd).wire hstate
  have hpinged := pinged_pingKeeping (hip ▸ Option.some_ne_none _)
  have hunheard : ¬∃ r ∈ [silentRound], r.heard = true := by
    rintro ⟨r, hr, hheard⟩
    obtain rfl := List.mem_singleton.mp hr
    cases hheard
  have hsteady : ∀ r ∈ [silentRound], r.Steady := by
    intro r hr hread
    obtain rfl := List.mem_singleton.mp hr
    cases hread
  obtain ⟨hprobes, hle⟩ := h.probes hd hstate
  exact ⟨_, .pinged _ silentRound [] h hstate hunheard hpinged,
    wrapperMqttYield_steady (h.reachable.framed hd) hstate hnil (fun _ _ => hpinged.2.2) hsteady
      hprobes hle fun htwo => absurd htwo.1 (by omega)⟩

/-- A client that has been accepted and whose pings nobody answers. -/
theorem unanswered_pings_accepted :
    ∃ c, Unanswered {} 2 c ∧ c.clientState = .connected ∧ c.keepaliveProbes.toNat = 2 ∧
      (wrapperMqttYield (pingKeeping c) silentRound [] c).clientState ≠ .connected := by
  have hmakes := wrapperMqttConnect_makes plain_default accepting (mcInit {} 2000 none) 30 rfl
    (Or.inl rfl)
  have haccepted : Unanswered {} 0 accepted := .connect 2000 none accepting
  obtain ⟨c₁, hone, hstate₁, hnil₁⟩ :=
    haccepted.unheard plain_default accepted_connected hmakes.nodes (by decide)
  obtain ⟨c₂, htwo, hstate₂, -⟩ := hone.unheard plain_default hstate₁ hnil₁ (by decide)
  obtain ⟨i, ws, -, -, hip⟩ := (htwo.reachable.framed plain_default).wire hstate₂
  obtain ⟨hcount, -, hthird, -⟩ := unanswered_pings {} plain_default 2 c₂ htwo hstate₂
    (pingKeeping c₂) silentRound []
  exact ⟨c₂, htwo, hstate₂, hcount, hthird rfl (pinged_pingKeeping (hip ▸ Option.some_ne_none _))⟩

/-! ## A connection that is lost -/

/-- A client that is not connected does not read, in however many rounds. -/
theorem mqttCycle_lost (hlost : c.clientState ≠ .connected) (rounds : List Round) :
    mqttCycle c rounds = c := by
  induction rounds with
  | nil => rfl
  | cons r rounds ih =>
      rw [mqttCycle, cycle, if_pos hlost]
      simp only
      rw [if_neg (show stateError ≠ successReturn by decide), ih]

/-- What is put out has no part in the client's state. -/
theorem state_of_put (c : Session) (s : Subscriber) (wire : List UInt8) :
    (({ c with toSubscriber := s } : Session).put wire).clientState = s.clientState :=
  congrArg (fun s => s.toClient.clientState) (put_toSubscriber _ _)

/-- Nor does it send: a publish leaves the state of a client that is not
connected. -/
theorem publish_lost (hlost : c.clientState ≠ .connected) (p : Publishing) (t : List UInt8)
    (m : TopicMsg) : (c.publish p t m).2.clientState = c.clientState := by
  obtain ⟨-, hclient, -⟩ := @wrapperMqttPublish_refused { p with writes := c.writes p.writes }
    c.toClient t m fun hthrough => hlost hthrough.2.1
  rw [if_neg fun hthrough => hlost hthrough.2] at hclient
  exact (state_of_put c { c.toSubscriber with toClient := _ } _).trans
    (congrArg Client.clientState hclient)

/-- A subscription leaves the state of such a client as well. -/
theorem subscribe_lost (hlost : c.clientState ≠ .connected) (q : Subscribing) (f : List UInt8)
    (qos : UInt8) (topicHandleFunc : Option ℕ) (pcontext : ℕ) :
    (c.subscribe q f qos topicHandleFunc pcontext).2.clientState = c.clientState := by
  have hstate : (wrapperMqttSubscribe { q with writes := c.writes q.writes } c.toSubscriber f qos
      topicHandleFunc pcontext).2.1.clientState = c.clientState := by
    rcases topicHandleFunc with - | hFp
    · rfl
    rw [wrapperMqttSubscribe]
    split
    · rfl
    simp only
    rw [if_pos (show (getNextPacketid c.toClient).2.clientState ≠ .connected from hlost)]
    rfl
  exact (state_of_put c _ _).trans hstate

theorem unsubscribe_lost (hlost : c.clientState ≠ .connected) (q : Subscribing) (u : List UInt8) :
    (c.unsubscribe q u).2.clientState = c.clientState := by
  have hstate : (wrapperMqttUnsubscribe { q with writes := c.writes q.writes }
      c.toSubscriber u).2.1.clientState = c.clientState := by
    rw [wrapperMqttUnsubscribe]
    simp only
    split
    · rfl
    rw [if_pos (show (getNextPacketid c.toClient).2.clientState ≠ .connected from hlost)]
    rfl
  exact (state_of_put c _ _).trans hstate

/-- A run of the client since its connection was lost, with how many tries
to make another have failed, and when the last of them did or the
connection was given up. -/
inductive Outage (d : ConnectData) : ℕ → UInt32 → Session → Prop
  | lost {c : Session} (k : Keeping) (first : Round) (rounds : List Round) :
      Reachable d c → (keepaliveSub k c).2.clientState = .disconnected →
        Outage d 0 k.reconnectNext (wrapperMqttYield k first rounds c)
  | publish {n : ℕ} {t : UInt32} {c : Session} (p : Publishing) (topicName : List UInt8)
      (topicMsg : TopicMsg) :
      Outage d n t c → Outage d n t (c.publish p topicName topicMsg).2
  | subscribe {n : ℕ} {t : UInt32} {c : Session} (q : Subscribing) (topicFilter : List UInt8)
      (qos : UInt8) (topicHandleFunc : Option ℕ) (pcontext : ℕ) :
      Outage d n t c → Outage d n t (c.subscribe q topicFilter qos topicHandleFunc pcontext).2
  | unsubscribe {n : ℕ} {t : UInt32} {c : Session} (q : Subscribing) (topicFilter : List UInt8) :
      Outage d n t c → Outage d n t (c.unsubscribe q topicFilter).2
  | idle {n : ℕ} {t : UInt32} {c : Session} (k : Keeping) (first : Round) (rounds : List Round) :
      Outage d n t c → timeIsExpired c.reconnectNextTime k.reconnectNow = false →
        Outage d n t (wrapperMqttYield k first rounds c)
  | failed {n : ℕ} {t : UInt32} {c : Session} (k : Keeping) (first : Round) (rounds : List Round) :
      Outage d n t c → timeIsExpired c.reconnectNextTime k.reconnectNow = true →
        (attemptReconnect k.connecting c).1 ≠ successReturn →
          Outage d (n + 1) k.reconnectNext (wrapperMqttYield k first rounds c)

variable {t : UInt32}

/-- A run since the connection was lost is a run of the client. -/
theorem Outage.reachable (h : Outage d n t c) : Reachable d c := by
  induction h with
  | lost k first rounds h _ => exact .yield k first rounds h
  | publish p t m _ ih => exact .publish p t m ih
  | subscribe q f qos hFp x _ ih => exact .subscribe q f qos hFp x ih
  | unsubscribe q u _ ih => exact .unsubscribe q u ih
  | idle k first rounds _ _ ih => exact .yield k first rounds ih
  | failed k first rounds _ _ _ ih => exact .yield k first rounds ih

/-- The interval behind `n` tries that have failed: 1000 ms, doubled up to
60000 ms. -/
def reconnectInterval (n : ℕ) : ℕ := if n ≤ 6 then 1000 * 2 ^ n else 60000

/-- How long the client waits behind `n` tries, in milliseconds. -/
def backoff (n : ℕ) : ℕ := min (1000 * 2 ^ n) 60000

/-- A try that fails brings the interval from one of these to the next. -/
theorem interval_succ {i : UInt32} (h : i.toNat = reconnectInterval n) :
    (nextInterval i).toNat = reconnectInterval (n + 1) := by
  have hmax : reconnectIntervalMaxMs.toNat = 60000 := rfl
  rw [nextInterval]
  by_cases hn : n ≤ 5
  · have hbound : 2 ^ n ≤ 2 ^ 5 := Nat.pow_le_pow_right (by decide) hn
    rw [reconnectInterval, if_pos (by omega)] at h
    have hless : i < reconnectIntervalMaxMs := by
      rw [UInt32.lt_iff_toNat_lt, h, hmax]
      omega
    rw [if_pos hless, UInt32.toNat_mul, h, reconnectInterval, if_pos (by omega), pow_succ]
    show 1000 * 2 ^ n * 2 % 2 ^ 32 = _
    omega
  · have hge : ¬i < reconnectIntervalMaxMs := by
      rw [UInt32.lt_iff_toNat_lt, h, hmax, reconnectInterval]
      split
      · obtain rfl : n = 6 := by omega
        decide
      · exact lt_irrefl _
    rw [if_neg hge, reconnectInterval, if_neg (by omega), hmax]

/-- The time behind the last try is the interval, but for one too long. -/
theorem backoff_of_interval {i : UInt32} (h : i.toNat = reconnectInterval n) :
    (if reconnectIntervalMaxMs < i then reconnectIntervalMaxMs else i).toNat = backoff n := by
  have hmax : reconnectIntervalMaxMs.toNat = 60000 := rfl
  have hinterval : min (reconnectInterval n) 60000 = backoff n := by
    rw [reconnectInterval, backoff]
    split
    · rfl
    · rename_i hn
      have hbound : 2 ^ 6 ≤ 2 ^ n := Nat.pow_le_pow_right (by decide) (by omega)
      omega
  rw [← hinterval, ← h]
  split
  · rename_i hlong
    rw [UInt32.lt_iff_toNat_lt, hmax] at hlong
    rw [hmax]
    omega
  · rename_i hshort
    rw [UInt32.lt_iff_toNat_lt, hmax] at hshort
    omega

/-- What a client keeps while it waits: its state, the interval, and the time
of the next try. -/
structure Waits (n : ℕ) (t : UInt32) (c : Session) : Prop where
  state : c.clientState = .disconnectedReconnecting
  interval : c.reconnectTimeIntervalMs.toNat = reconnectInterval n
  next : ∃ wait : UInt32, wait.toNat = backoff n ∧ c.reconnectNextTime = t + wait

/-- A call that makes no connection and leaves the state alone does not change
for how long the client waits. -/
theorem Waits.goes (h : Waits n t c) (hgoes : Goes c c') (hstate : c'.clientState = c.clientState) :
    Waits n t c' where
  state := hstate.trans h.state
  interval := (congrArg UInt32.toNat (congrArg (fun x => x.2.2) hgoes.course)).trans h.interval
  next := by
    obtain ⟨wait, hwait, hnext⟩ := h.next
    exact ⟨wait, hwait, (congrArg (fun x => x.2.1) hgoes.course).trans hnext⟩

/-- A yield before the time has come leaves the client exactly as it is. -/
theorem Waits.idle (h : Waits n t c) {k : Keeping}
    (hdue : timeIsExpired c.reconnectNextTime k.reconnectNow = false) (first : Round)
    (rounds : List Round) : wrapperMqttYield k first rounds c = c := by
  have hkeep : keepalive k c = c := by
    rw [keepalive_waits h.state, handleReconnect, if_pos hdue]
    rfl
  rw [wrapperMqttYield, hkeep]
  exact mqttCycle_lost (by rw [h.state]; decide) _

/-- A yield that fails to connect doubles the interval, and sets the next try
behind it. -/
theorem Waits.failed (hd : d.Plain) (hframed : Framed d c) (h : Waits n t c) {k : Keeping}
    (hdue : timeIsExpired c.reconnectNextTime k.reconnectNow = true)
    (hrc : (attemptReconnect k.connecting c).1 ≠ successReturn) (first : Round)
    (rounds : List Round) :
    Waits (n + 1) k.reconnectNext (wrapperMqttYield k first rounds c) := by
  obtain ⟨i, hdata⟩ := hframed.data
  have hmakes : Makes d c.netDisconnect (attemptReconnect k.connecting c) :=
    wrapperMqttConnect_makes hd k.connecting c.netDisconnect i hdata (Or.inl rfl)
  have hstate : (attemptReconnect k.connecting c).2.clientState = .disconnectedReconnecting :=
    (hmakes.failed hrc).trans h.state
  have hinterval := interval_succ
    ((congrArg UInt32.toNat hmakes.interval).trans h.interval)
  have hkeep := keepalive_waits (k := k) h.state
  rw [handleReconnect_eq hdue, if_neg hrc] at hkeep
  simp only at hkeep
  rw [if_neg hrc] at hkeep
  rw [wrapperMqttYield, hkeep, mqttCycle_lost (by rw [hstate]; decide)]
  exact ⟨hstate, hinterval, _, backoff_of_interval hinterval, rfl⟩

/-- **A client that has lost its connection waits**, by induction over the run
since. -/
theorem Outage.waits (hd : d.Plain) (h : Outage d n t c) : Waits n t c := by
  induction h with
  | @lost c k first rounds h hlost =>
      have hkeep : keepalive k c = { (keepaliveSub k c).2.netDisconnect.setClientState
          .disconnectedReconnecting with
            reconnectTimeIntervalMs := reconnectIntervalMinMs
            reconnectNextTime := timeCountdownMs k.reconnectNext reconnectIntervalMinMs } := by
        rw [keepalive]
        simp only
        rw [if_neg (by rw [hlost]; decide), if_pos hlost]
      rw [wrapperMqttYield, hkeep, mqttCycle_lost
        (show ClientState.disconnectedReconnecting ≠ .connected by decide)]
      exact ⟨rfl, rfl, reconnectIntervalMinMs, rfl, rfl⟩
  | publish p t m _ ih =>
      exact ih.goes (publish_goes _ p t m) (publish_lost (by rw [ih.state]; decide) p t m)
  | subscribe q f qos hFp x _ ih =>
      exact ih.goes (subscribe_goes _ q f qos hFp x)
        (subscribe_lost (by rw [ih.state]; decide) q f qos hFp x)
  | unsubscribe q u _ ih =>
      exact ih.goes (unsubscribe_goes _ q u) (unsubscribe_lost (by rw [ih.state]; decide) q u)
  | idle k first rounds _ hdue ih =>
      rw [ih.idle hdue first rounds]
      exact ih
  | failed k first rounds h hdue hrc ih =>
      exact ih.failed hd (h.reachable.framed hd) hdue hrc first rounds

/-- On a clock that wraps, a timer that was set for `wait` has expired for
the `2 ^ 31 - 1` milliseconds behind it, and not before or after them. -/
theorem timeIsExpired_iff {wait e : UInt32} (hwait : wait.toNat = backoff n) :
    timeIsExpired (t + wait) (t + e) = true ↔
      backoff n ≤ e.toNat ∧ e.toNat < backoff n + (2 ^ 31 - 1) := by
  have hpos : 1 ≤ 2 ^ n := Nat.one_le_two_pow
  have hbound : 1000 ≤ backoff n ∧ backoff n ≤ 60000 := by
    rw [backoff]
    omega
  have hsub : (t + e - (t + wait)).toNat = (e.toNat + (2 ^ 32 - backoff n)) % 2 ^ 32 := by
    rw [UInt32.toNat_sub, UInt32.toNat_add, UInt32.toNat_add, hwait]
    have := t.toNat_lt
    omega
  have he := e.toNat_lt
  rw [timeIsExpired, decide_eq_true_iff, UInt32.lt_iff_toNat_lt, hsub]
  show _ < 2147483647 ↔ _
  omega

/-- The time at which a client tries again behind `n` tries that failed,
`e` being the milliseconds since the last of them on its clock. -/
def TryDue (n : ℕ) (e : UInt32) : Prop :=
  min (1000 * 2 ^ n) 60000 ≤ e.toNat ∧ e.toNat < min (1000 * 2 ^ n) 60000 + (2 ^ 31 - 1)

/-- **A client tries to reconnect on time**, over every run since the
connection was lost: behind `n` tries that failed it waits `1000 * 2 ^ n`
milliseconds, 60 seconds at most. A yield before that changes nothing, nor
does one that comes when the clock is half way round behind it. One at that
time makes a try: where it succeeds the client is connected, and counts from
one second again; where it fails it is a try more, and the next one is as
much later. -/
theorem reconnects_on_time (d : ConnectData) (hd : d.Plain) (n : ℕ) (t : UInt32) (c : Session)
    (h : Outage d n t c) (k : Keeping) (first : Round) (rounds : List Round) (e : UInt32)
    (hnow : k.reconnectNow = t + e) :
    (¬TryDue n e → wrapperMqttYield k first rounds c = c) ∧
      (TryDue n e →
        ((attemptReconnect k.connecting c).1 = successReturn →
          (keepalive k c).clientState = .connected ∧
            (keepalive k c).reconnectTimeIntervalMs = reconnectIntervalMinMs) ∧
        ((attemptReconnect k.connecting c).1 ≠ successReturn →
          Outage d (n + 1) k.reconnectNext (wrapperMqttYield k first rounds c))) := by
  have hwaits := h.waits hd
  obtain ⟨wait, hwait, hnext⟩ := hwaits.next
  have hexpired : timeIsExpired c.reconnectNextTime k.reconnectNow = true ↔ TryDue n e := by
    rw [hnext, hnow]
    exact timeIsExpired_iff hwait
  refine ⟨fun hearly => ?_, fun hdue => ⟨fun hrc => ?_, fun hrc => ?_⟩⟩
  · exact hwaits.idle (Bool.eq_false_of_not_eq_true fun hd => hearly (hexpired.mp hd)) first rounds
  · rw [keepalive_waits hwaits.state, handleReconnect_eq (hexpired.mpr hdue), if_pos hrc]
    exact ⟨rfl, rfl⟩
  · exact .failed k first rounds h (hexpired.mpr hdue) hrc

/-- A client whose ping fails, and what it meets when it tries to reconnect. -/
def lostKeeping : Keeping where
  pingNow := accepted.nextPingTime
  pingNext := 0
  ping := ⟨true, [.fail]⟩
  reconnectNow := 999
  connecting := accepting
  reconnectNext := 0

/-- The connection is lost with a ping, at the time 0. -/
def lostSession : Session := wrapperMqttYield lostKeeping cutRound [] accepted

/-- The ping of that run fails, and the client is disconnected. -/
theorem keepaliveSub_lost : (keepaliveSub lostKeeping accepted).2.clientState = .disconnected := by
  rw [keepaliveSub, if_neg (not_not.mpr accepted_connected), lostKeeping,
    if_neg (by rw [timeIsExpired_self]; decide)]
  simp only
  rw [mqttKeepalive_eq _ _ rfl, Session.sendPacket, Session.writes, ite_self]
  rfl

/-- A yield 999 ms behind the loss, which is before the first try is due. -/
theorem reconnects_on_time_lost :
    (¬TryDue 0 999 → wrapperMqttYield lostKeeping cutRound [] lostSession = lostSession) ∧
      (TryDue 0 999 →
        ((attemptReconnect lostKeeping.connecting lostSession).1 = successReturn →
          (keepalive lostKeeping lostSession).clientState = .connected ∧
            (keepalive lostKeeping lostSession).reconnectTimeIntervalMs = reconnectIntervalMinMs) ∧
        ((attemptReconnect lostKeeping.connecting lostSession).1 ≠ successReturn →
          Outage {} (0 + 1) lostKeeping.reconnectNext
            (wrapperMqttYield lostKeeping cutRound [] lostSession))) :=
  reconnects_on_time {} plain_default 0 0 lostSession
    (.lost lostKeeping cutRound [] (.connect 2000 none accepting) keepaliveSub_lost) lostKeeping
    cutRound [] 999 (by decide)

end Mqtt

end WeatherTerminal
