import WeatherTerminal.Mqtt.Call
import WeatherTerminal.Mqtt.Model.Subscription
import Mathlib.Data.List.Nodup
/-!
# MQTT — subscriptions over a run

A call that subscribes enters its handler once, and one that unsubscribes
takes out the handlers its filter is meant by, the NUL behind it being one
byte more. A filter without a wildcard at its end is meant by no string that
ends in a NUL, so that its handler stays for good (`subscription_stays`);
of the others, a call takes out its own where it can (`unsubscribe_own`).
-/

namespace WeatherTerminal

namespace Mqtt

/-! ## One call -/

/-- What can become of a packet that is sent: it is out, or the call has
failed, with a front of the packet out where the network has. -/
def Sent (packet : List UInt8) (rc : ℤ) (wire : List UInt8) : Prop :=
  (rc = successReturn ∧ wire = packet) ∨
    (rc < 0 ∧ wire <+: packet ∧ wire ≠ packet ∧ (rc ≠ networkError → wire = []))

variable {p : Subscribing} {c : Subscriber} {f g u packet wire : List UInt8} {rc : ℤ}
variable {qos : UInt8} {handle : EventHandle} {node : TopicHandle} {writes : List Write}

/-- A call that fails before it sends puts out nothing. -/
theorem sent_nil (hrc : rc < 0) (hne : packet ≠ []) : Sent packet rc [] :=
  Or.inr ⟨hrc, List.nil_prefix, hne.symm, fun _ => rfl⟩

/-- A packet that the network takes is out, and the call has succeeded. -/
theorem sent_success (h : sendPacket packet writes = (wire, true)) :
    Sent packet successReturn wire := by
  have hspec := sendPacket_spec packet writes
  rw [h] at hspec
  exact Or.inl ⟨rfl, hspec.2.mp rfl⟩

/-- A packet that the network does not take is out in part, and the call has
failed. -/
theorem sent_failed (h : sendPacket packet writes = (wire, false)) :
    Sent packet networkError wire := by
  have hspec := sendPacket_spec packet writes
  rw [h] at hspec
  exact Or.inr ⟨show networkError < 0 by decide, hspec.1,
    fun h => Bool.false_ne_true (hspec.2.mpr h), fun h => absurd rfl h⟩

/-- Two handlers are the same where filter, function and context are. -/
theorem checkHandleIsIdentical_iff {a b : TopicHandle} :
    checkHandleIsIdentical a b = true ↔ a = b := by
  rcases a with ⟨f, h, x⟩
  rcases b with ⟨g, k, y⟩
  simp only [checkHandleIsIdentical, Bool.and_eq_true, beq_iff_eq, TopicHandle.mk.injEq,
    EventHandle.mk.injEq]
  exact ⟨fun h => ⟨h.1.1.2, h.1.2, h.2⟩, fun h => ⟨⟨⟨by rw [h.1], h.1⟩, h.2.1⟩, h.2.2⟩⟩

/-- The three allocations of a subscription are granted: the handler, its
filter and the buffer. -/
def Subscribing.Granted (p : Subscribing) : Prop :=
  p.handlerGranted = true ∧ p.filterGranted = true ∧ p.bufGranted = true

/-- The handlers with one more, if it is not among them. -/
def entered (handlers : List TopicHandle) (handler : TopicHandle) : List TopicHandle :=
  if handler ∈ handlers then handlers else handlers ++ [handler]

/-- The handlers that are left when a filter is unsubscribed. -/
def left (handlers : List TopicHandle) (u : List UInt8) : List TopicHandle :=
  handlers.filter fun node => !node.meant (u ++ [0])

/-- **What a subscribe does**: its packet is out and the handler is entered,
or it has failed and the handlers are as they were. -/
theorem mqttSubscribe_spec (p : Subscribing) (c : Subscriber) (f : List UInt8) (qos : UInt8)
    (msgId : ℕ) (handle : EventHandle) :
    let r := mqttSubscribe p c f qos msgId handle
    Sent (subscribePacket (UInt16.ofNat msgId).toNat f qos) r.1 r.2.2 ∧
      r.2.1.toClient = c.toClient ∧
      (r.2.1.listSubHandle =
        if r.1 = successReturn then entered c.listSubHandle ⟨f, handle⟩ else c.listSubHandle) ∧
      (p.Granted → f.length + 3 ≤ 1019 →
        (sendPacket (subscribePacket (UInt16.ofNat msgId).toNat f qos) p.writes).2 = true →
          r.1 = successReturn) := by
  have hne : subscribePacket (UInt16.ofNat msgId).toNat f qos ≠ [] := List.cons_ne_nil _ _
  have hserialized := serialized_alloc f.length (header subscribeType 0 1 0)
    (int2 (UInt16.ofNat msgId).toNat ++ (int2 f.length ++ f ++ [qos]))
    (Nat.le_refl 3) (by simp only [List.length_append, length_int2, List.length_singleton]; omega)
  rw [← subscribePacket] at hserialized
  simp only at hserialized ⊢
  rw [mqttSubscribe]
  split
  · rename_i hdenied
    exact ⟨sent_nil (show failReturn < 0 by decide) hne, rfl, rfl,
      fun h => absurd hdenied (by rw [h.1]; decide)⟩
  split
  · rename_i hdenied
    exact ⟨sent_nil (show failReturn < 0 by decide) hne, rfl, rfl,
      fun h => absurd hdenied (by rw [h.2.1]; decide)⟩
  split
  · rename_i hdenied
    exact ⟨sent_nil (show failReturn < 0 by decide) hne, rfl, rfl,
      fun h => absurd hdenied (by rw [h.2.2]; decide)⟩
  rw [serializeSubscribe_eq]
  simp only
  by_cases hfits : f.length + 3 ≤ 1019
  · rw [if_pos hfits] at hserialized
    obtain ⟨hpos, hpacket, -⟩ := hserialized
    rw [if_neg (by omega), hpacket]
    rcases hsend : sendPacket (subscribePacket (UInt16.ofNat msgId).toNat f qos) p.writes with
      ⟨wire, - | -⟩
    · exact ⟨sent_failed hsend, rfl, rfl, fun _ _ hsent => absurd hsent Bool.false_ne_true⟩
    · refine ⟨sent_success hsend, ?_, ?_, fun _ _ _ => rfl⟩
      · show (if _ then c else _).toClient = c.toClient
        split <;> rfl
      · show (if _ then c else _).listSubHandle = if successReturn = successReturn then _ else _
        rw [if_pos rfl, entered]
        simp only [List.any_eq_true, checkHandleIsIdentical_iff, exists_eq_right]
        split <;> rfl
  · rw [if_neg hfits] at hserialized
    rw [if_pos hserialized]
    exact ⟨sent_nil (show subscribePacketError < 0 by decide) hne, rfl, rfl,
      fun _ h => absurd h hfits⟩

/-- **What an unsubscribe does**: its packet is out and the handlers that
are meant are taken out, or it has failed and they are as they were. -/
theorem mqttUnsubscribe_spec (p : Subscribing) (c : Subscriber) (u : List UInt8) (msgId : ℕ) :
    let r := mqttUnsubscribe p c u msgId
    Sent (unsubscribePacket (UInt16.ofNat msgId).toNat u) r.1 r.2.2 ∧
      r.2.1.toClient = c.toClient ∧
      (r.2.1.listSubHandle =
        if r.1 = successReturn then left c.listSubHandle u else c.listSubHandle) ∧
      (p.Granted → u.length + 2 ≤ 1019 →
        (sendPacket (unsubscribePacket (UInt16.ofNat msgId).toNat u) p.writes).2 = true →
          r.1 = successReturn) := by
  have hne : unsubscribePacket (UInt16.ofNat msgId).toNat u ≠ [] := List.cons_ne_nil _ _
  have hserialized := serialized_alloc u.length (header unsubscribeType 0 1 0)
    (int2 (UInt16.ofNat msgId).toNat ++ (int2 u.length ++ u))
    (show 2 ≤ 3 by decide) (by simp only [List.length_append, length_int2]; omega)
  rw [← unsubscribePacket] at hserialized
  simp only at hserialized ⊢
  rw [mqttUnsubscribe]
  split
  · rename_i hdenied
    exact ⟨sent_nil (show failReturn < 0 by decide) hne, rfl, rfl,
      fun h => absurd hdenied (by rw [h.1]; decide)⟩
  split
  · rename_i hdenied
    exact ⟨sent_nil (show failReturn < 0 by decide) hne, rfl, rfl,
      fun h => absurd hdenied (by rw [h.2.1]; decide)⟩
  split
  · rename_i hdenied
    exact ⟨sent_nil (show failReturn < 0 by decide) hne, rfl, rfl,
      fun h => absurd hdenied (by rw [h.2.2]; decide)⟩
  rw [serializeUnsubscribe_eq]
  simp only
  by_cases hfits : u.length + 2 ≤ 1019
  · rw [if_pos hfits] at hserialized
    obtain ⟨hpos, hpacket, -⟩ := hserialized
    rw [if_neg (by omega), hpacket]
    rcases hsend : sendPacket (unsubscribePacket (UInt16.ofNat msgId).toNat u) p.writes with
      ⟨wire, - | -⟩
    · exact ⟨sent_failed hsend, rfl, rfl, fun _ _ hsent => absurd hsent Bool.false_ne_true⟩
    · exact ⟨sent_success hsend, rfl, (if_pos rfl).symm, fun _ _ _ => rfl⟩
  · rw [if_neg hfits] at hserialized
    rw [if_pos hserialized]
    exact ⟨sent_nil (show unsubscribePacketError < 0 by decide) hne, rfl, rfl,
      fun _ h => absurd h hfits⟩

/-- **A call that subscribes**: where it succeeds, it returns the identifier
under which its packet went out, and the filter has passed the check. -/
theorem wrapperMqttSubscribe_spec (p : Subscribing) (c : Subscriber) (f : List UInt8)
    (qos : UInt8) (topicHandleFunc : Option ℕ) (pcontext : ℕ) :
    let r := wrapperMqttSubscribe p c f qos topicHandleFunc pcontext
    (r.1 < 0 ∧ r.2.1.listSubHandle = c.listSubHandle) ∨
      ∃ hFp id, topicHandleFunc = some hFp ∧ id = (getNextPacketid c.toClient).1 ∧ r.1 = (id : ℤ) ∧
        checkTopic .filter f = true ∧ r.2.2 = subscribePacket (UInt16.ofNat id).toNat f qos ∧
        r.2.1.listSubHandle = entered c.listSubHandle ⟨f, hFp, pcontext⟩ := by
  simp only
  rcases topicHandleFunc with - | hFp
  · exact Or.inl ⟨show nullValueError < 0 by decide, rfl⟩
  rw [wrapperMqttSubscribe]
  split
  · exact Or.inl ⟨show nullValueError < 0 by decide, rfl⟩
  simp only
  split
  · exact Or.inl ⟨show stateError < 0 by decide, rfl⟩
  split
  · exact Or.inl ⟨show topicFormatError < 0 by decide, rfl⟩
  · rename_i hcheck
    have hspec := mqttSubscribe_spec p { c with toClient := (getNextPacketid c.toClient).2 } f qos
      (getNextPacketid c.toClient).1 ⟨hFp, pcontext⟩
    simp only at hspec
    obtain ⟨⟨hrc, hwire⟩ | ⟨hrc, -, -⟩, -, hlist, -⟩ := hspec
    · rw [if_neg (not_not.mpr hrc)]
      rw [if_pos hrc] at hlist
      exact Or.inr ⟨hFp, _, rfl, rfl, rfl, Bool.eq_true_of_not_eq_false hcheck, hwire, hlist⟩
    · rw [if_pos (ne_of_lt hrc)]
      rw [if_neg (ne_of_lt hrc)] at hlist
      refine Or.inl ⟨hrc, ?_⟩
      show (if _ then _ else _ : Subscriber).listSubHandle = _
      split <;> exact hlist

/-- **A call that unsubscribes** takes the handlers that are meant, or fails
and takes none. -/
theorem wrapperMqttUnsubscribe_spec (p : Subscribing) (c : Subscriber) (u : List UInt8) :
    let r := wrapperMqttUnsubscribe p c u
    (r.1 < 0 ∧ r.2.1.listSubHandle = c.listSubHandle) ∨
      ∃ id, id = (getNextPacketid c.toClient).1 ∧ r.1 = (id : ℤ) ∧
        checkTopic .filter u = true ∧ r.2.2 = unsubscribePacket (UInt16.ofNat id).toNat u ∧
        r.2.1.listSubHandle = left c.listSubHandle u := by
  simp only
  rw [wrapperMqttUnsubscribe]
  simp only
  split
  · exact Or.inl ⟨show topicFormatError < 0 by decide, rfl⟩
  rename_i hcheck
  split
  · exact Or.inl ⟨show stateError < 0 by decide, rfl⟩
  · have hspec := mqttUnsubscribe_spec p { c with toClient := (getNextPacketid c.toClient).2 } u
      (getNextPacketid c.toClient).1
    simp only at hspec
    obtain ⟨⟨hrc, hwire⟩ | ⟨hrc, -, -⟩, -, hlist, -⟩ := hspec
    · rw [if_neg (not_not.mpr hrc)]
      rw [if_pos hrc] at hlist
      exact Or.inr ⟨_, rfl, rfl, Bool.eq_true_of_not_eq_false hcheck, hwire, hlist⟩
    · rw [if_pos (ne_of_lt hrc)]
      rw [if_neg (ne_of_lt hrc)] at hlist
      refine Or.inl ⟨hrc, ?_⟩
      show (if _ then _ else _ : Subscriber).listSubHandle = _
      split <;> exact hlist

/-- A subscription succeeds where the client is connected, its filter passes
and the memory and the network take part. -/
theorem wrapperMqttSubscribe_success {hFp pcontext : ℕ} (hstate : c.clientState = .connected)
    (hcheck : checkTopic .filter f = true) (hgranted : p.Granted)
    (hwrites : p.writes = [.wrote 1024]) :
    0 ≤ (wrapperMqttSubscribe p c f qos (some hFp) pcontext).1 := by
  have hf := (checkTopic_iff .filter f).mp hcheck
  have hne : f ≠ [] := by
    rintro rfl
    exact absurd hf.1 (by decide)
  have hlen : f.length + 3 ≤ 1019 := by
    have := hf.2.1
    simp only [topicMaxlen] at this
    omega
  have hspec := (mqttSubscribe_spec p { c with toClient := (getNextPacketid c.toClient).2 } f qos
    (getNextPacketid c.toClient).1 ⟨hFp, pcontext⟩).2.2.2 hgranted hlen (by
      rw [hwrites]
      exact sendPacket_whole (length_packetBytes_le (Nat.le_refl 3) (by
        simp only [List.length_append, length_int2, List.length_singleton]
        omega) hlen))
  have hnext : (getNextPacketid c.toClient).2.clientState = .connected := hstate
  rw [wrapperMqttSubscribe, if_neg hne]
  simp only
  rw [if_neg (not_not.mpr hnext), if_neg (by rw [hcheck]; decide), if_neg (not_not.mpr hspec)]
  exact Int.natCast_nonneg _

/-- The same holds of a call that unsubscribes, with its filter in place of
the other. -/
theorem wrapperMqttUnsubscribe_success (hstate : c.clientState = .connected)
    (hcheck : checkTopic .filter u = true) (hgranted : p.Granted)
    (hwrites : p.writes = [.wrote 1024]) : 0 ≤ (wrapperMqttUnsubscribe p c u).1 := by
  have hlen : u.length + 2 ≤ 1019 := by
    have := ((checkTopic_iff .filter u).mp hcheck).2.1
    simp only [topicMaxlen] at this
    omega
  have hspec := (mqttUnsubscribe_spec p { c with toClient := (getNextPacketid c.toClient).2 } u
    (getNextPacketid c.toClient).1).2.2.2 hgranted hlen (by
      rw [hwrites]
      exact sendPacket_whole (length_packetBytes_le (show 2 ≤ 3 by decide) (by
        simp only [List.length_append, length_int2]
        omega) hlen))
  have hnext : (getNextPacketid c.toClient).2.clientState = .connected := hstate
  rw [wrapperMqttUnsubscribe]
  simp only
  rw [if_neg (by rw [hcheck]; decide), if_neg (not_not.mpr hnext), if_neg (not_not.mpr hspec)]
  exact Int.natCast_nonneg _

/-! ## What an unsubscribe takes out -/

/-- **A filter that is meant by a string with a NUL behind it ends in a
wildcard**: nothing else in it takes the NUL. -/
theorem getLast?_of_isTopicMatched_zero (hg : 0 ∉ g) (h : isTopicMatched g (u ++ [0]) = true) :
    g.getLast? = some plus ∨ g.getLast? = some hash := by
  induction g generalizing u with
  | nil =>
      rw [isTopicMatched] at h
      simp at h
  | cons a g ih =>
      have ha : a ≠ 0 := fun h => hg (h ▸ List.mem_cons_self)
      have hg' : 0 ∉ g := fun h => hg (List.mem_cons_of_mem a h)
      -- what is left of the filter behind its first byte
      have hbehind : ∀ v, isTopicMatched g (v ++ [0]) = true →
          (a :: g).getLast? = some plus ∨ (a :: g).getLast? = some hash := by
        intro v hv
        have hlast := ih hg' hv
        rcases g with - | ⟨b, g⟩
        · simp at hlast
        · exact hlast
      have hend : isTopicMatched g [] = true → a = plus ∨ a = hash →
          (a :: g).getLast? = some plus ∨ (a :: g).getLast? = some hash := by
        intro hnil hwild
        rw [isTopicMatched_nil, List.isEmpty_iff] at hnil
        subst hnil
        exact hwild.imp (by rintro rfl; rfl) (by rintro rfl; rfl)
      rcases u with - | ⟨c, u⟩
      · rw [List.nil_append, isTopicMatched] at h
        split at h
        · cases h
        split at h
        · cases h
        split at h
        · rename_i hplus
          exact hend h (Or.inl hplus)
        split at h
        · rename_i hhash
          exact hend h (Or.inr hhash)
        · rename_i hne hplus hhash
          exact absurd ⟨hplus, hhash, ha⟩ hne
      · rw [List.cons_append, isTopicMatched] at h
        split at h
        · cases h
        split at h
        · cases h
        split at h
        · rename_i hplus
          rw [List.dropWhile_append] at h
          split at h
          · exact hend h (Or.inl hplus)
          · exact hbehind _ h
        split at h
        · rename_i hhash
          exact hend h (Or.inr hhash)
        · exact hbehind u h

/-- What only a filter with a wildcard at its end can lose: its handler. -/
def Literal (f : List UInt8) : Prop :=
  0 ∉ f ∧ f.getLast? ≠ some plus ∧ f.getLast? ≠ some hash
deriving Decidable

/-- The NUL that an unsubscribe passes along keeps it from being any filter,
so only the matching can take a handler. -/
theorem meant_zero (hf : 0 ∉ node.topicFilter) :
    node.meant (u ++ [0]) = isTopicMatched node.topicFilter (u ++ [0]) := by
  have hne : node.topicFilter ≠ u ++ [0] := by
    intro h
    rw [h] at hf
    exact hf (List.mem_append_right u List.mem_cons_self)
  rw [TopicHandle.meant, beq_eq_false_iff_ne.mpr hne, Bool.false_or]

/-- A handler of a literal filter stays, whatever filter is unsubscribed. -/
theorem mem_left_of_literal (hf : Literal node.topicFilter) (handlers : List TopicHandle) :
    node ∈ left handlers u ↔ node ∈ handlers := by
  rw [left, List.mem_filter, and_iff_left]
  rw [meant_zero hf.1, Bool.not_eq_true', ← Bool.not_eq_true]
  intro h
  exact (getLast?_of_isTopicMatched_zero hf.1 h).elim hf.2.1 hf.2.2

/-- A NUL behind a filter goes to its last level and leaves the others as they
are. -/
theorem levels_append_zero (u : List UInt8) :
    levels (u ++ [0]) = (levels u).dropLast ++ [(levels u).getLast (levels_ne_nil u) ++ [0]] := by
  induction hlen : u.length using Nat.strong_induction_on generalizing u with
  | _ k ih =>
    rcases levels_cases u with ⟨hslash, hlevels⟩ | ⟨l, v, hslash, rfl, hlevels⟩
    · have hzero : slash ∉ u ++ [0] := fun h => (List.mem_append.mp h).elim hslash (by decide)
      rw [levels_single hzero]
      simp only [hlevels, List.dropLast_singleton, List.getLast_singleton, List.nil_append]
    · rw [List.append_assoc, List.cons_append, levels_append hslash,
        ih v.length (by rw [← hlen, List.length_append, List.length_cons]; omega) v rfl]
      simp only [hlevels, List.getLast_cons (levels_ne_nil v)]
      rw [List.dropLast_cons_of_ne_nil (levels_ne_nil v), List.cons_append]

/-- The last level is a wildcard, and no level before it a `#`. -/
def OwnWild (ls : List (List UInt8)) : Prop :=
  (ls.getLast? = some [plus] ∨ ls.getLast? = some [hash]) ∧ [hash] ∉ ls.dropLast

/-- A filter takes its own levels with a NUL behind them exactly where a
wildcard at its end can take it. -/
theorem takes_own {ls : List (List UInt8)} (hne : ls ≠ []) (hlevel : ∀ l ∈ ls, Level l) :
    Filter.takes [plus] [hash] takesOne takesRest ls (ls.dropLast ++ [ls.getLast hne ++ [0]]) =
        true ↔ OwnWild ls := by
  induction ls with
  | nil => exact absurd rfl hne
  | cons l ls ih =>
      rcases ls with - | ⟨m, ls⟩
      · rw [List.dropLast_singleton, List.getLast_singleton, List.nil_append]
        rcases hlevel l List.mem_cons_self with rfl | rfl | ⟨hplus, hhash⟩
        · exact iff_of_true rfl ⟨Or.inl rfl, List.not_mem_nil⟩
        · exact iff_of_true rfl ⟨Or.inr rfl, List.not_mem_nil⟩
        · have hany : l ≠ [plus] := fun h => hplus (h ▸ List.mem_cons_self)
          have hrest : l ≠ [hash] := fun h => hhash (h ▸ List.mem_cons_self)
          rw [Filter.takes_cons _ _ _ _ hrest, if_neg hany]
          refine iff_of_false (by simp) ?_
          rintro ⟨h | h, -⟩
          · exact hany (Option.some.inj h)
          · exact hrest (Option.some.inj h)
      · have hne' : m :: ls ≠ [] := List.cons_ne_nil m ls
        have hbehind := ih hne' fun k hk => hlevel k (List.mem_cons_of_mem l hk)
        rw [List.dropLast_cons_of_ne_nil hne', List.getLast_cons hne', List.cons_append]
        have hown : l ≠ [hash] → (OwnWild (l :: m :: ls) ↔ OwnWild (m :: ls)) := by
          intro hrest
          rw [OwnWild, OwnWild, List.getLast?_cons_cons, List.dropLast_cons_of_ne_nil hne',
            List.mem_cons, not_or]
          exact and_congr_right fun _ => and_iff_right hrest.symm
        rcases hlevel l List.mem_cons_self with rfl | rfl | ⟨hplus, hhash⟩
        · rw [Filter.takes_cons _ _ _ _ (by decide), if_pos rfl, hown (by decide), ← hbehind]
          exact Iff.of_eq (congrArg (· = true) (Bool.true_and _))
        · rw [Filter.takes_rest _ _ _ rfl]
          refine iff_of_false (by simp) fun h => h.2 ?_
          rw [List.dropLast_cons_of_ne_nil hne']
          exact List.mem_cons_self
        · have hany : l ≠ [plus] := fun h => hplus (h ▸ List.mem_cons_self)
          have hrest : l ≠ [hash] := fun h => hhash (h ▸ List.mem_cons_self)
          rw [Filter.takes_cons _ _ _ _ hrest, if_neg hany, hown hrest, ← hbehind,
            decide_eq_true rfl, Bool.true_and]

/-! ## Runs -/

/-- What can happen to the subscriptions: the calls, and whatever else makes
of the rest of the client. -/
inductive SubOp
  | subscribe (p : Subscribing) (topicFilter : List UInt8) (qos : UInt8)
      (topicHandleFunc : Option ℕ) (pcontext : ℕ)
  | unsubscribe (p : Subscribing) (topicFilter : List UInt8)
  | client (c : Client)

/-- One step: a call that subscribes or unsubscribes, or anything else that
leaves the handlers alone. -/
def subStep (c : Subscriber) : SubOp → Subscriber
  | .subscribe p f qos h pcontext => (wrapperMqttSubscribe p c f qos h pcontext).2.1
  | .unsubscribe p u => (wrapperMqttUnsubscribe p c u).2.1
  | .client client => { c with toClient := client }

/-- A run of such steps, from the client as it is before them. -/
def subRun (c : Subscriber) (ops : List SubOp) : Subscriber := ops.foldl subStep c

/-- What a step does to the handlers: nothing, one more of them, or those gone
that an unsubscribe means. -/
theorem subStep_cases (c : Subscriber) (op : SubOp) :
    (subStep c op).listSubHandle = c.listSubHandle ∨
      (∃ handler, (subStep c op).listSubHandle = entered c.listSubHandle handler) ∨
      ∃ u, (subStep c op).listSubHandle = left c.listSubHandle u := by
  cases op with
  | subscribe p f qos h pcontext =>
      rcases wrapperMqttSubscribe_spec p c f qos h pcontext with
        ⟨-, hlist⟩ | ⟨hFp, id, -, -, -, -, -, hlist⟩
      · exact Or.inl hlist
      · exact Or.inr (Or.inl ⟨_, hlist⟩)
  | unsubscribe p u =>
      rcases wrapperMqttUnsubscribe_spec p c u with ⟨-, hlist⟩ | ⟨id, -, -, -, -, hlist⟩
      · exact Or.inl hlist
      · exact Or.inr (Or.inr ⟨u, hlist⟩)
  | client client => exact Or.inl rfl

theorem entered_nodup {handlers : List TopicHandle} (h : handlers.Nodup) (handler : TopicHandle) :
    (entered handlers handler).Nodup := by
  rw [entered]
  split
  · exact h
  · rename_i hnew
    exact List.nodup_append.mpr ⟨h, List.nodup_singleton handler, by
      rintro a ha b hb rfl
      exact hnew (List.mem_singleton.mp hb ▸ ha)⟩

/-- A handler is entered where it was before or is the one that is entered
now. -/
theorem mem_entered {handlers : List TopicHandle} {a handler : TopicHandle} :
    a ∈ entered handlers handler ↔ a ∈ handlers ∨ a = handler := by
  rw [entered]
  split
  · rename_i hmem
    exact ⟨Or.inl, fun h => h.elim id fun h => h ▸ hmem⟩
  · rw [List.mem_append, List.mem_singleton]

theorem subStep_nodup (op : SubOp) (h : c.listSubHandle.Nodup) :
    (subStep c op).listSubHandle.Nodup := by
  rcases subStep_cases c op with hlist | ⟨handler, hlist⟩ | ⟨u, hlist⟩
  · rwa [hlist]
  · rw [hlist]
    exact entered_nodup h handler
  · rw [hlist]
    exact h.filter _

/-- No handler is entered twice over a run, by induction over its steps. -/
theorem subRun_nodup (ops : List SubOp) (h : c.listSubHandle.Nodup) :
    (subRun c ops).listSubHandle.Nodup := by
  induction ops generalizing c with
  | nil => exact h
  | cons op ops ih => exact ih (subStep_nodup op h)

/-- A handler of a literal filter outlasts a step, calls that unsubscribe
among them. -/
theorem mem_subStep (op : SubOp) (hliteral : Literal node.topicFilter)
    (h : node ∈ c.listSubHandle) : node ∈ (subStep c op).listSubHandle := by
  rcases subStep_cases c op with hlist | ⟨handler, hlist⟩ | ⟨u, hlist⟩
  · rwa [hlist]
  · rw [hlist]
    exact mem_entered.mpr (Or.inl h)
  · rw [hlist]
    exact (mem_left_of_literal hliteral _).mpr h

/-- A handler of a literal filter outlasts a whole run of steps. -/
theorem mem_subRun (ops : List SubOp) (hliteral : Literal node.topicFilter)
    (h : node ∈ c.listSubHandle) : node ∈ (subRun c ops).listSubHandle := by
  induction ops generalizing c with
  | nil => exact h
  | cons op ops ih => exact ih (mem_subStep op hliteral h)

/-- A message that no subscription takes goes to the handler of the client,
and only that. -/
theorem deliverMessage_eq (c : Subscriber) (topicName : List UInt8) :
    deliverMessage c topicName =
      if taken (c.listSubHandle.map (·.topicFilter)) topicName then
        (c.listSubHandle.filter (·.meant topicName)).map (·.handle)
      else c.handleEvent.toList := by
  have htaken : taken (c.listSubHandle.map (·.topicFilter)) topicName = true ↔
      c.listSubHandle.filter (·.meant topicName) ≠ [] := by
    rw [taken, List.any_map, List.any_eq_true, ne_eq, List.filter_eq_nil_iff]
    push Not
    rfl
  rw [deliverMessage]
  by_cases hnil : c.listSubHandle.filter (·.meant topicName) = []
  · rw [if_pos hnil, if_neg (fun h => htaken.mp h hnil)]
  · rw [if_neg hnil, if_pos (htaken.mpr hnil)]

/-- **A subscription stays**: once a call has subscribed a handler to a
filter that does not end in a wildcard, the client has it exactly once after
any run, calls that unsubscribe the very filter among them, and calls it
with every message that is meant for it. -/
theorem subscription_stays (c : Subscriber) (hempty : c.listSubHandle = []) (before : List SubOp)
    (p : Subscribing) (f : List UInt8) (qos : UInt8) (hFp pcontext : ℕ)
    (hsuccess : 0 ≤ (wrapperMqttSubscribe p (subRun c before) f qos (some hFp) pcontext).1)
    (hliteral : Literal f) (ops : List SubOp) :
    let c' := subRun (wrapperMqttSubscribe p (subRun c before) f qos (some hFp) pcontext).2.1 ops
    c'.listSubHandle.count ⟨f, hFp, pcontext⟩ = 1 ∧
      ∀ topicName, f = topicName ∨ isTopicMatched f topicName = true →
        ⟨hFp, pcontext⟩ ∈ deliverMessage c' topicName := by
  simp only
  have hnodup : (subRun c before).listSubHandle.Nodup :=
    subRun_nodup before (by rw [hempty]; exact List.nodup_nil)
  obtain ⟨hrc, -⟩ | ⟨hFp', id, hsome, -, -, -, -, hlist⟩ :=
    wrapperMqttSubscribe_spec p (subRun c before) f qos (some hFp) pcontext
  · exact absurd hsuccess (not_le.mpr hrc)
  obtain rfl := Option.some.inj hsome
  have hmem : (⟨f, hFp, pcontext⟩ : TopicHandle) ∈
      (subRun (wrapperMqttSubscribe p (subRun c before) f qos (some hFp) pcontext).2.1
        ops).listSubHandle :=
    mem_subRun ops hliteral (by rw [hlist]; exact mem_entered.mpr (Or.inr rfl))
  refine ⟨List.count_eq_one_of_mem (subRun_nodup ops ?_) hmem, fun topicName hmeant => ?_⟩
  · rw [hlist]
    exact entered_nodup hnodup _
  · have hmeant' : (⟨f, hFp, pcontext⟩ : TopicHandle).meant topicName = true := by
      rw [TopicHandle.meant, Bool.or_eq_true, beq_iff_eq]
      exact hmeant
    rw [deliverMessage_eq, if_pos]
    · exact List.mem_map.mpr ⟨_, List.mem_filter.mpr ⟨hmem, hmeant'⟩, rfl⟩
    · exact List.any_eq_true.mpr ⟨f, List.mem_map.mpr ⟨_, hmem, rfl⟩, hmeant'⟩

/-- A client without a subscription, and a network that takes every packet. -/
def newSubscriber : Subscriber := { newClient with listSubHandle := [], handleEvent := none }
/-- A subscription that the memory and the network let through. -/
def takesSub : Subscribing := ⟨true, true, true, [.wrote 1024]⟩

/-- The filter of the run passes the check, by evaluation. -/
theorem checkTopic_ab : checkTopic .filter (utf8 "/ab") = true :=
  (checkTopic_short .filter (by decide)).mpr ⟨by decide, by decide, by decide, by decide⟩

/-- A subscription to a literal filter that is unsubscribed with the same
filter, and is still there. -/
theorem subscription_stays_ab :
    let c' := subRun (wrapperMqttSubscribe takesSub (subRun newSubscriber []) (utf8 "/ab") 0
      (some 1) 2).2.1 [.unsubscribe takesSub (utf8 "/ab")]
    c'.listSubHandle.count ⟨utf8 "/ab", 1, 2⟩ = 1 ∧
      ∀ topicName, utf8 "/ab" = topicName ∨ isTopicMatched (utf8 "/ab") topicName = true →
        ⟨1, 2⟩ ∈ deliverMessage c' topicName :=
  subscription_stays newSubscriber rfl [] takesSub (utf8 "/ab") 0 1 2
    (wrapperMqttSubscribe_success rfl checkTopic_ab ⟨rfl, rfl, rfl⟩ rfl)
    (show Literal (utf8 "/ab") by decide) _

/-! ## The filters over a run -/

/-- A handler that is there behind a step was there before it, or its filter
has passed the check. -/
theorem mem_subStep_cases (op : SubOp) (h : node ∈ (subStep c op).listSubHandle) :
    node ∈ c.listSubHandle ∨ checkTopic .filter node.topicFilter = true := by
  cases op with
  | subscribe p f qos topicHandleFunc pcontext =>
      rcases wrapperMqttSubscribe_spec p c f qos topicHandleFunc pcontext with
        ⟨-, hlist⟩ | ⟨hFp, id, -, -, -, hcheck, -, hlist⟩
      · exact Or.inl (hlist ▸ h)
      · have hmem : node ∈ entered c.listSubHandle ⟨f, hFp, pcontext⟩ := hlist ▸ h
        exact (mem_entered.mp hmem).imp_right (by rintro rfl; exact hcheck)
  | unsubscribe p u =>
      rcases wrapperMqttUnsubscribe_spec p c u with ⟨-, hlist⟩ | ⟨id, -, -, -, -, hlist⟩
      · exact Or.inl (hlist ▸ h)
      · have hmem : node ∈ left c.listSubHandle u := hlist ▸ h
        exact Or.inl (List.mem_filter.mp hmem).1
  | client client => exact Or.inl h

/-- Every filter that is kept has passed the check, by induction over the
steps. -/
theorem subRun_checked (ops : List SubOp)
    (h : ∀ node ∈ c.listSubHandle, checkTopic .filter node.topicFilter = true) :
    ∀ node ∈ (subRun c ops).listSubHandle, checkTopic .filter node.topicFilter = true := by
  induction ops generalizing c with
  | nil => exact h
  | cons op ops ih =>
      exact ih fun node hmem => (mem_subStep_cases op hmem).elim (h node) id

/-- **What an unsubscribe takes out** of the handlers a run has left: those
whose filter takes, level by level, the one that is unsubscribed with a NUL
at its end. So its own handler is among them exactly where its last level is
a wildcard, behind no `#`. -/
theorem unsubscribe_own (c : Subscriber) (hempty : c.listSubHandle = []) (ops : List SubOp)
    (p : Subscribing) (u : List UInt8)
    (hsuccess : 0 ≤ (wrapperMqttUnsubscribe p (subRun c ops) u).1) (node : TopicHandle)
    (hnode : node ∈ (subRun c ops).listSubHandle) (hzero : 0 ∉ node.topicFilter)
    (hshort : node.topicFilter.length < topicMaxlen) :
    (node ∉ (wrapperMqttUnsubscribe p (subRun c ops) u).2.1.listSubHandle ↔
        Filter.takes [plus] [hash] takesOne takesRest (levels node.topicFilter)
          (levels (u ++ [0])) = true) ∧
      (node.topicFilter = u →
        (node ∉ (wrapperMqttUnsubscribe p (subRun c ops) u).2.1.listSubHandle ↔
          OwnWild (levels u))) := by
  have hlevel : ∀ l ∈ levels node.topicFilter, Level l :=
    level_of_checkTopic (subRun_checked ops (by rw [hempty]; exact nofun) node hnode) hshort
  have htaken : node ∉ (wrapperMqttUnsubscribe p (subRun c ops) u).2.1.listSubHandle ↔
      Filter.takes [plus] [hash] takesOne takesRest (levels node.topicFilter)
        (levels (u ++ [0])) = true := by
    obtain ⟨hrc, -⟩ | ⟨id, -, -, -, -, hlist⟩ := wrapperMqttUnsubscribe_spec p (subRun c ops) u
    · exact absurd hsuccess (not_le.mpr hrc)
    · rw [hlist, left, List.mem_filter, and_iff_right hnode, meant_zero hzero,
        isTopicMatched_levels _ _ hlevel, Bool.not_eq_true', Bool.not_eq_false]
  refine ⟨htaken, fun hown => htaken.trans ?_⟩
  subst hown
  rw [levels_append_zero]
  exact takes_own (levels_ne_nil _) hlevel

/-- The handler of a client that has subscribed to all below a topic. -/
def belowAb : TopicHandle := ⟨utf8 "/ab/#", 1, 2⟩
/-- A run that subscribes to all topics below one, over a client that is new.
-/
def belowAbOps : List SubOp :=
  [.subscribe takesSub (utf8 "/ab/#") 0 (some 1) 2, .client newClient]

/-- The filter with a wildcard at its end passes the check. -/
theorem checkTopic_below : checkTopic .filter (utf8 "/ab/#") = true :=
  (checkTopic_short .filter (by decide)).mpr ⟨by decide, by decide, by decide, by decide⟩

/-- The handler of that subscription is in the list at the end of the run. -/
theorem mem_belowAb : belowAb ∈ (subRun newSubscriber belowAbOps).listSubHandle := by
  have hsuccess : 0 ≤ (wrapperMqttSubscribe takesSub newSubscriber (utf8 "/ab/#") 0 (some 1) 2).1 :=
    wrapperMqttSubscribe_success rfl checkTopic_below ⟨rfl, rfl, rfl⟩ rfl
  obtain ⟨hrc, -⟩ | ⟨hFp, id, hsome, -, -, -, -, hlist⟩ :=
    wrapperMqttSubscribe_spec takesSub newSubscriber (utf8 "/ab/#") 0 (some 1) 2
  · exact absurd hsuccess (not_le.mpr hrc)
  · obtain rfl := Option.some.inj hsome
    show belowAb ∈
      (wrapperMqttSubscribe takesSub newSubscriber (utf8 "/ab/#") 0 (some 1) 2).2.1.listSubHandle
    rw [hlist]
    exact mem_entered.mpr (Or.inr rfl)

/-- A filter with a wildcard at its end is taken out by itself, as the
matching with the NUL says. -/
theorem unsubscribe_own_below :
    (belowAb ∉ (wrapperMqttUnsubscribe takesSub (subRun newSubscriber belowAbOps)
        (utf8 "/ab/#")).2.1.listSubHandle ↔
      Filter.takes [plus] [hash] takesOne takesRest (levels belowAb.topicFilter)
        (levels (utf8 "/ab/#" ++ [0])) = true) ∧
      (belowAb.topicFilter = utf8 "/ab/#" →
        (belowAb ∉ (wrapperMqttUnsubscribe takesSub (subRun newSubscriber belowAbOps)
            (utf8 "/ab/#")).2.1.listSubHandle ↔ OwnWild (levels (utf8 "/ab/#")))) :=
  unsubscribe_own newSubscriber rfl belowAbOps takesSub (utf8 "/ab/#")
    (wrapperMqttUnsubscribe_success rfl checkTopic_below ⟨rfl, rfl, rfl⟩ rfl) belowAb mem_belowAb
    (by decide) (by decide)

end Mqtt

end WeatherTerminal
