import WeatherTerminal.Mqtt.Model.Packet
/-!
# MQTT — what passes for a topic

`iotx_mc_check_topic` looks at the topic of a publish and at the filter of
a subscription before they go out, level by level as `infra_strtok` hands
them out. What is left of the string that is taken apart stands for the
`pos` the tokenizer keeps from call to call.
-/

namespace WeatherTerminal

namespace Mqtt

/-- `/`, the byte that stands between the levels of a topic, and before the
first of them. -/
abbrev slash : UInt8 := 0x2F
/-- `+`, a level of a filter that stands for any one level of a topic. -/
abbrev plus : UInt8 := 0x2B
/-- `#`, the last level of a filter, which stands for all that is left of a
topic. -/
abbrev hash : UInt8 := 0x23

/-- `CONFIG_MQTT_TOPIC_MAXLEN`, with `PLATFORM_HAS_DYNMEM`: the array a topic
is copied into to be checked. -/
abbrev topicMaxlen : ℕ := 128

/-- `iotx_mc_topic_type_t`: the topic of a publish, or the filter of a
subscription, which may have wildcards. -/
inductive TopicType
  | name
  | filter
deriving DecidableEq, Repr

/-- The loop of `infra_strtok`, its delimiter being `/`: what lies between
`target` and `pos`, and what lies at `pos`. -/
def strtokFrom (onlyDelim : Bool) (token : List UInt8) :
    List UInt8 → Option (List UInt8) × List UInt8
  | [] => (some token, [])
  | c :: pos =>
      if c ≠ slash then strtokFrom false (token ++ [c]) pos
      else if pos = [] then (if onlyDelim then none else some token, [])
      else if token = [] then strtokFrom onlyDelim [] pos
      else (some token, pos)

/-- `infra_strtok` behind its first call: the token, `none` being the null
pointer, and `pos` behind it. -/
def strtok (pos : List UInt8) : Option (List UInt8) × List UInt8 :=
  if pos.length ≤ 1 then (none, pos) else strtokFrom true [] pos

/-- `iotx_mc_check_rule`, true being `SUCCESS_RETURN`: a wildcard is a level
by itself, of a filter, and all bytes are printable. -/
def checkRule (type : TopicType) (iterm : List UInt8) : Bool :=
  iterm.all fun c =>
    (if c = plus ∨ c = hash then decide (type = .filter ∧ iterm.length = 1) else true) &&
      decide (32 ≤ c ∧ c < 127)

/-- The tokenizer goes past one byte at least, whatever it returns. -/
theorem length_strtokFrom_le (onlyDelim : Bool) (token pos : List UInt8) :
    (strtokFrom onlyDelim token pos).2.length ≤ pos.length - 1 := by
  induction pos generalizing onlyDelim token with
  | nil => exact Nat.le_refl 0
  | cons c pos ih =>
      rw [strtokFrom, List.length_cons, Nat.add_sub_cancel]
      split
      · exact (ih false _).trans (Nat.sub_le _ 1)
      split
      · exact Nat.zero_le _
      split
      · exact (ih onlyDelim _).trans (Nat.sub_le _ 1)
      · exact Nat.le_refl _

/-- Where it returns a token, less is left: the loop over the tokens ends. -/
theorem length_strtok_lt {iterm pos pos' : List UInt8} (h : strtok pos = (some iterm, pos')) :
    pos'.length < pos.length := by
  rw [strtok] at h
  split at h
  · cases (Prod.mk.inj h).1
  · have hle := length_strtokFrom_le true [] pos
    rw [h] at hle
    simp only at hle
    omega

/-- The loop of `iotx_mc_check_topic` over the tokens behind the first;
`mask` is set behind one that begins with `#`. -/
def checkRest (type : TopicType) (mask : Bool) (pos : List UInt8) : Bool :=
  match _h : strtok pos with
  | (none, _) => true
  | (some iterm, pos') =>
      if mask then false
      else if checkRule type iterm then checkRest type (iterm.headD 0 == hash) pos'
      else false
termination_by pos.length
decreasing_by exact length_strtok_lt _h

/-- `iotx_mc_check_topic`, true being `SUCCESS_RETURN`. The string is
copied into an array of `topicMaxlen` bytes, the last of them NUL. -/
def checkTopic (type : TopicType) (topicName : List UInt8) : Bool :=
  if topicName.headD 0 ≠ slash then false
  else if topicMaxlen < topicName.length then false
  else match strtok (topicName.take (topicMaxlen - 1)) with
    | (none, _) => false
    | (some iterm, pos) => checkRule type iterm && checkRest type false pos

end Mqtt

end WeatherTerminal
